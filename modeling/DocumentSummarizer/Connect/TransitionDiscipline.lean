import DocumentSummarizer.Connect.BackgroundTransition

/-! # The discipline of the control root

What a transition record promises about the manager and about the effects issued
for it, and which change of the shared state each process may make.
-/

namespace DocumentSummarizer.Connect.Background

open Library

/-- The publishers were stopped for this generation. -/
def Stopped (generation : String) (journal : List Call) : Prop :=
  ∃ call ∈ journal, call.effect = .stopPublishers ∧ call.succeeded = true ∧
    call.transition.generation = generation

/-- The publishers were stopped again, for its rollback. -/
def RollbackStopped (generation : String) (journal : List Call) : Prop :=
  ∃ call ∈ journal, call.effect = .stopPublishers ∧ call.succeeded = true ∧
    call.transition.generation = generation ∧ call.transition.disposition = .rollback

/-- What must precede an effect. -/
structure Issued (call : Call) (earlier : List Call) : Prop where
  enable : call.effect = .enableAndStart → Stopped call.transition.generation earlier
  restore : call.effect = .restorePriorChoice →
    RollbackStopped call.transition.generation earlier

def InOrder : List Call → Prop
  | [] => True
  | call :: earlier => Issued call earlier ∧ InOrder earlier

/-- The phases of a transition, with what each promises. -/
inductive Stage (t : BackgroundTransition) (enabled : Bool) (journal : List Call) : Prop where
  | intended (forward : t.disposition = .forward) (phase : t.phase = .intentRecorded)
  | sourceStopped (forward : t.disposition = .forward) (kind : t.kind = .enable)
      (phase : t.phase = .sourceStopped) (stopped : Stopped t.generation journal)
  | managerEnabled (forward : t.disposition = .forward) (kind : t.kind = .enable)
      (phase : t.phase = .managerEnabled) (choice : enabled = true)
  | successorReady (forward : t.disposition = .forward) (kind : t.kind = .enable)
      (phase : t.phase = .successorReady) (choice : enabled = true)
  | publisherStopped (forward : t.disposition = .forward) (kind : t.kind = .disable)
      (phase : t.phase = .publisherStopped)
  | managerDisabled (forward : t.disposition = .forward) (kind : t.kind = .disable)
      (phase : t.phase = .managerDisabled) (choice : enabled = false)
  | rollingBack (rollback : t.disposition = .rollback) (kind : t.kind = .enable)
      (phase : t.phase = .managerEnabled)
  | targetStopped (rollback : t.disposition = .rollback) (kind : t.kind = .enable)
      (phase : t.phase = .rollbackTargetStopped)
      (stopped : RollbackStopped t.generation journal)
  | restored (rollback : t.disposition = .rollback) (kind : t.kind = .enable)
      (phase : t.phase = .priorChoiceRestored) (choice : enabled = t.priorEnabled)

namespace Stage

variable {t : BackgroundTransition} {enabled : Bool} {journal : List Call}

section

variable (h : Stage t enabled journal)

include h

theorem stopped_of_phase (phase : t.phase = .sourceStopped) :
    Stopped t.generation journal := by
  cases h with
  | sourceStopped _ _ _ stopped => exact stopped
  | intended _ other | managerEnabled _ _ other _ | successorReady _ _ other _
  | publisherStopped _ _ other | managerDisabled _ _ other _ | rollingBack _ _ other
  | targetStopped _ _ other _ | restored _ _ other _ => cases phase.symm.trans other

theorem enabled_of_phase (forward : t.disposition = .forward)
    (phase : t.phase = .managerEnabled) : enabled = true := by
  cases h with
  | managerEnabled _ _ _ choice => exact choice
  | rollingBack rollback _ _ => cases forward.symm.trans rollback
  | intended _ other | sourceStopped _ _ other _ | successorReady _ _ other _
  | publisherStopped _ _ other | managerDisabled _ _ other _ | targetStopped _ _ other _
  | restored _ _ other _ => cases phase.symm.trans other

theorem enabled_of_ready (phase : t.phase = .successorReady) :
    enabled = true := by
  cases h with
  | successorReady _ _ _ choice => exact choice
  | intended _ other | sourceStopped _ _ other _ | managerEnabled _ _ other _
  | publisherStopped _ _ other | managerDisabled _ _ other _ | rollingBack _ _ other
  | targetStopped _ _ other _ | restored _ _ other _ => cases phase.symm.trans other

theorem disabled_of_phase (phase : t.phase = .managerDisabled) :
    enabled = false := by
  cases h with
  | managerDisabled _ _ _ choice => exact choice
  | intended _ other | sourceStopped _ _ other _ | managerEnabled _ _ other _
  | successorReady _ _ other _ | publisherStopped _ _ other | rollingBack _ _ other
  | targetStopped _ _ other _ | restored _ _ other _ => cases phase.symm.trans other

end

end Stage

structure Consistent (t : BackgroundTransition) (enabled : Bool) (journal : List Call) :
    Prop where
  target : t.targetEnabled = (t.kind == .enable)
  stage : Stage t enabled journal

/-- The identity of a transition. -/
structure SameIdentity (t u : BackgroundTransition) : Prop where
  generation : u.generation = t.generation
  kind : u.kind = t.kind
  prior : u.priorEnabled = t.priorEnabled
  target : u.targetEnabled = t.targetEnabled
  state : u.state = t.state

/-- The manager is where a cleared transition was to leave it. -/
structure Settled (t : BackgroundTransition) (enabled : Bool) : Prop where
  forward : t.disposition = .forward → enabled = t.targetEnabled
  rollback : t.disposition = .rollback → enabled = t.priorEnabled

structure ControlInvariant (s : Control) : Prop where
  record : ∀ t, s.record = some t → Consistent t s.enabled s.journal
  journal : InOrder s.journal
  guarded : ∀ k ∈ s.admitted, k ∈ s.admission.shared
  admitted : s.admitted ≠ [] → s.record = none

/-- What the others leave alone for process `k`: everything while it holds the control lock, its
own locks and guard, and an absent record while it shares the admission lock. -/
structure ControlFrame (k : Client) (s t : Control) : Prop where
  held : s.control.exclusive = some k → t.control.exclusive = some k ∧ t.record = s.record ∧
    t.enabled = s.enabled ∧ t.journal = s.journal ∧ t.cleared = s.cleared
  free : s.control.exclusive ≠ some k → t.control.exclusive ≠ some k
  exclusive : t.admission.exclusive = some k ↔ s.admission.exclusive = some k
  shared : k ∈ t.admission.shared ↔ k ∈ s.admission.shared
  admitted : k ∈ t.admitted ↔ k ∈ s.admitted
  gate : k ∈ s.admission.shared → s.record = none → t.record = none

/-- What one step does to the record, the journal and the guards. -/
structure ControlChange (s t : Control) : Prop where
  identity : ∀ r, s.record = some r →
    t.record = none ∨ ∃ r', t.record = some r' ∧ SameIdentity r r'
  cleared : ∀ r, s.record = some r → t.record = none → t.cleared = some r ∧ Settled r s.enabled
  issued : t.journal = s.journal ∨ ∃ call, t.journal = call :: s.journal ∧ Issued call s.journal
  created : s.record = none → t.record ≠ none → s.admitted = []
  granted : ∀ k ∈ t.admitted, k ∉ s.admitted → s.record = none

def controlDiscipline : Discipline Control Client where
  inv := ControlInvariant
  frame := ControlFrame
  change := ControlChange
  frame_refl := by
    intro k s
    exact ⟨fun held => ⟨held, rfl, rfl, rfl, rfl⟩, id, Iff.rfl, Iff.rfl, Iff.rfl, fun _ none => none⟩
  frame_trans := by
    intro k s t u left right
    constructor
    · intro held
      obtain ⟨here, record, enabled, journal, cleared⟩ := left.held held
      obtain ⟨there, record', enabled', journal', cleared'⟩ := right.held here
      exact ⟨there, record'.trans record, enabled'.trans enabled, journal'.trans journal,
        cleared'.trans cleared⟩
    · exact fun free => right.free (left.free free)
    · exact right.exclusive.trans left.exclusive
    · exact right.shared.trans left.shared
    · exact right.admitted.trans left.admitted
    · exact fun mem none => right.gate (left.shared.mpr mem) (left.gate mem none)

/-! ## Facts that stay -/

theorem Stopped.cons {generation : String} {journal : List Call} (h : Stopped generation journal)
    (call : Call) : Stopped generation (call :: journal) := by
  obtain ⟨found, mem, facts⟩ := h
  exact ⟨found, List.mem_cons_of_mem call mem, facts⟩

theorem RollbackStopped.cons {generation : String} {journal : List Call}
    (h : RollbackStopped generation journal) (call : Call) :
    RollbackStopped generation (call :: journal) := by
  obtain ⟨found, mem, facts⟩ := h
  exact ⟨found, List.mem_cons_of_mem call mem, facts⟩

theorem Consistent.cons {t : BackgroundTransition} {enabled : Bool} {journal : List Call}
    (h : Consistent t enabled journal) (call : Call) : Consistent t enabled (call :: journal) where
  target := h.target
  stage := by
    cases h.stage with
    | intended forward phase => exact .intended forward phase
    | sourceStopped forward kind phase stopped =>
        exact .sourceStopped forward kind phase (stopped.cons call)
    | managerEnabled forward kind phase choice => exact .managerEnabled forward kind phase choice
    | successorReady forward kind phase choice => exact .successorReady forward kind phase choice
    | publisherStopped forward kind phase => exact .publisherStopped forward kind phase
    | managerDisabled forward kind phase choice => exact .managerDisabled forward kind phase choice
    | rollingBack rollback kind phase => exact .rollingBack rollback kind phase
    | targetStopped rollback kind phase stopped =>
        exact .targetStopped rollback kind phase (stopped.cons call)
    | restored rollback kind phase choice => exact .restored rollback kind phase choice

theorem SameIdentity.refl (t : BackgroundTransition) : SameIdentity t t :=
  ⟨rfl, rfl, rfl, rfl, rfl⟩

theorem SameIdentity.withPhase (t : BackgroundTransition) (phase : TransitionPhase) :
    SameIdentity t (t.withPhase phase) :=
  ⟨rfl, rfl, rfl, rfl, rfl⟩

theorem Consistent.congr {t u : BackgroundTransition} {enabled : Bool} {journal : List Call}
    (h : Consistent t enabled journal) (same : SameIdentity t u)
    (disposition : u.disposition = t.disposition) (phase : u.phase = t.phase) :
    Consistent u enabled journal where
  target := by rw [same.target, same.kind, h.target]
  stage := by
    cases h.stage with
    | intended forward at_phase =>
        exact .intended (disposition.trans forward) (phase.trans at_phase)
    | sourceStopped forward kind at_phase stopped =>
        exact .sourceStopped (disposition.trans forward) (same.kind.trans kind)
          (phase.trans at_phase) (same.generation.symm ▸ stopped)
    | managerEnabled forward kind at_phase choice =>
        exact .managerEnabled (disposition.trans forward) (same.kind.trans kind)
          (phase.trans at_phase) choice
    | successorReady forward kind at_phase choice =>
        exact .successorReady (disposition.trans forward) (same.kind.trans kind)
          (phase.trans at_phase) choice
    | publisherStopped forward kind at_phase =>
        exact .publisherStopped (disposition.trans forward) (same.kind.trans kind)
          (phase.trans at_phase)
    | managerDisabled forward kind at_phase choice =>
        exact .managerDisabled (disposition.trans forward) (same.kind.trans kind)
          (phase.trans at_phase) choice
    | rollingBack rollback kind at_phase =>
        exact .rollingBack (disposition.trans rollback) (same.kind.trans kind)
          (phase.trans at_phase)
    | targetStopped rollback kind at_phase stopped =>
        exact .targetStopped (disposition.trans rollback) (same.kind.trans kind)
          (phase.trans at_phase) (same.generation.symm ▸ stopped)
    | restored rollback kind at_phase choice =>
        exact .restored (disposition.trans rollback) (same.kind.trans kind)
          (phase.trans at_phase) (choice.trans same.prior.symm)

/-! ## The steps a process may take -/

section Steps

variable {k : Client} {s : Control}

section

variable (inv : ControlInvariant s)

include inv

/-- A step that touches only the locks, and no other process's part of them. -/
theorem allows_locks {t : Control} (record : t.record = s.record)
    (enabled : t.enabled = s.enabled) (journal : t.journal = s.journal)
    (admitted : ∀ j ∈ t.admitted, j ∈ s.admitted ∧ j ∈ t.admission.shared)
    (others : ∀ j, j ≠ k →
      (s.control.exclusive = some j → t.control.exclusive = some j ∧ t.cleared = s.cleared) ∧
      (s.control.exclusive ≠ some j → t.control.exclusive ≠ some j) ∧
      (t.admission.exclusive = some j ↔ s.admission.exclusive = some j) ∧
      (j ∈ t.admission.shared ↔ j ∈ s.admission.shared) ∧ (j ∈ s.admitted → j ∈ t.admitted)) :
    controlDiscipline.Allows k s t where
  inv := {
    record := fun r found => enabled ▸ journal ▸ inv.record r (record ▸ found)
    journal := journal ▸ inv.journal
    guarded := fun j mem => (admitted j mem).2
    admitted := by
      intro some_guard
      rw [record]
      apply inv.admitted
      intro nobody
      obtain ⟨j, mem⟩ := List.exists_mem_of_ne_nil _ some_guard
      have held := (admitted j mem).1
      rw [nobody] at held
      cases held }
  frame := by
    intro j other
    obtain ⟨held, free, exclusive, shared, guards⟩ := others j other
    refine ⟨?_, free, exclusive, shared, ?_, fun _ none => record.trans none⟩
    · intro mine
      exact ⟨(held mine).1, record, enabled, journal, (held mine).2⟩
    · exact ⟨fun mem => (admitted j mem).1, guards⟩
  change := {
    identity := fun r found => .inr ⟨r, record.trans found, .refl r⟩
    cleared := by
      intro r found gone
      rw [record, found] at gone
      cases gone
    issued := .inl journal
    created := by
      intro absent present
      exact absurd (record.trans absent) present
    granted := by
      intro j mem new
      exact absurd (admitted j mem).1 new }

theorem allows_same : controlDiscipline.Allows k s s := by
  refine allows_locks inv rfl rfl rfl ?_ ?_
  · exact fun j mem => ⟨mem, inv.guarded j mem⟩
  · exact fun j _ => ⟨fun held => ⟨held, rfl⟩, id, Iff.rfl, Iff.rfl, id⟩

theorem allows_controlLock {lock : FileLock Client}
    (taken : s.control.tryLock k = some lock) :
    controlDiscipline.Allows k s { s with control := lock, cleared := none } := by
  obtain ⟨free, -, mine, -⟩ := FileLock.tryLock_some taken
  refine allows_locks inv rfl rfl rfl ?_ ?_
  · exact fun j mem => ⟨mem, inv.guarded j mem⟩
  · intro j other
    refine ⟨?_, ?_, Iff.rfl, Iff.rfl, id⟩
    · intro held
      rw [free] at held
      cases held
    · intro _ held
      rw [mine] at held
      exact other (Option.some.inj held).symm

theorem allows_admissionLock {lock : FileLock Client}
    {exclusive : Bool}
    (taken : (if exclusive then s.admission.tryLock k else s.admission.tryLockShared k) =
      some lock) :
    controlDiscipline.Allows k s { s with admission := lock } := by
  cases exclusive with
  | true =>
      obtain ⟨free, nobody, mine, alone⟩ := FileLock.tryLock_some taken
      have no_guard : ∀ j, j ∉ s.admitted := by
        intro j mem
        have shared := inv.guarded j mem
        rw [nobody] at shared
        cases shared
      refine allows_locks inv rfl rfl rfl ?_ ?_
      · exact fun j mem => absurd mem (no_guard j)
      · intro j other
        refine ⟨fun held => ⟨held, rfl⟩, id, ?_, ?_, id⟩
        · simp [mine, free, other.symm]
        · simp [alone, nobody]
  | false =>
      obtain ⟨free, none_exclusive, shared⟩ := FileLock.tryLockShared_some taken
      refine allows_locks inv rfl rfl rfl ?_ ?_
      · intro j mem
        refine ⟨mem, ?_⟩
        rw [shared]
        exact List.mem_cons_of_mem k (inv.guarded j mem)
      · intro j other
        refine ⟨fun held => ⟨held, rfl⟩, id, ?_, ?_, id⟩
        · simp [none_exclusive, free]
        · simp [shared, other]

theorem allows_dropAdmissionLock (unguarded : k ∉ s.admitted) :
    controlDiscipline.Allows k s (dropAdmissionLock k s) := by
  refine allows_locks inv rfl rfl rfl ?_ ?_
  · intro j mem
    refine ⟨mem, ?_⟩
    have other : j ≠ k := fun same => unguarded (same ▸ mem)
    exact (FileLock.unlock_shared_other other).mpr (inv.guarded j mem)
  · intro j other
    exact ⟨fun held => ⟨held, rfl⟩, id, FileLock.unlock_exclusive_other other,
      FileLock.unlock_shared_other other, id⟩

theorem allows_releaseAll :
    controlDiscipline.Allows k s (releaseAll k s) := by
  refine allows_locks inv rfl rfl rfl ?_ ?_
  · intro j mem
    simp only [releaseAll, List.mem_filter, ne_eq, decide_eq_true_eq] at mem
    exact ⟨mem.1, (FileLock.unlock_shared_other mem.2).mpr (inv.guarded j mem.1)⟩
  · intro j other
    refine ⟨fun held => ⟨(FileLock.unlock_exclusive_other other).mpr held, rfl⟩, ?_,
      FileLock.unlock_exclusive_other other, FileLock.unlock_shared_other other, ?_⟩
    · exact fun free held => free ((FileLock.unlock_exclusive_other other).mp held)
    · intro mem
      simp [releaseAll, mem, other]

theorem no_guards (gate : s.admission.exclusive = some k) :
    s.admitted = [] := by
  apply List.eq_nil_iff_forall_not_mem.mpr
  intro j mem
  have shared := inv.guarded j mem
  rw [FileLock.shared_nil gate] at shared
  cases shared

end

theorem allows_write (inv : ControlInvariant s) (held : s.control.exclusive = some k)
    (gate : s.admission.exclusive = some k) {t : BackgroundTransition}
    (same : ∀ r, s.record = some r → SameIdentity r t)
    (consistent : Consistent t s.enabled s.journal) :
    controlDiscipline.Allows k s { s with record := some t } where
  inv := {
    record := by
      intro r found
      cases found
      exact consistent
    journal := inv.journal
    guarded := inv.guarded
    admitted := fun some_guard => absurd (no_guards inv gate) some_guard }
  frame := by
    intro j other
    refine ⟨?_, id, Iff.rfl, Iff.rfl, Iff.rfl, ?_⟩
    · intro mine
      rw [held] at mine
      exact absurd (Option.some.inj mine).symm other
    · intro shared
      rw [FileLock.shared_nil gate] at shared
      cases shared
  change := {
    identity := fun r found => .inr ⟨t, rfl, same r found⟩
    cleared := nofun
    issued := .inl rfl
    created := fun _ _ => no_guards inv gate
    granted := fun j mem new => absurd mem new }

theorem allows_remove (inv : ControlInvariant s) (held : s.control.exclusive = some k)
    {t : BackgroundTransition} (found : s.record = some t) (settled : Settled t s.enabled) :
    controlDiscipline.Allows k s { s with record := none, cleared := some t } where
  inv := ⟨nofun, inv.journal, inv.guarded, fun _ => rfl⟩
  frame := by
    intro j other
    refine ⟨?_, id, Iff.rfl, Iff.rfl, Iff.rfl, fun _ _ => rfl⟩
    intro mine
    rw [held] at mine
    exact absurd (Option.some.inj mine).symm other
  change := {
    identity := fun _ _ => .inl rfl
    cleared := by
      intro r same _
      rw [found] at same
      cases same
      exact ⟨rfl, settled⟩
    issued := .inl rfl
    created := fun _ present => absurd rfl present
    granted := fun j mem new => absurd mem new }

theorem allows_perform (inv : ControlInvariant s) (held : s.control.exclusive = some k)
    {call : Call} {enabled : Bool} (issued : Issued call s.journal)
    (consistent : ∀ t, s.record = some t → Consistent t enabled (call :: s.journal)) :
    controlDiscipline.Allows k s
      { s with enabled := enabled, journal := call :: s.journal } where
  inv := ⟨consistent, ⟨issued, inv.journal⟩, inv.guarded, inv.admitted⟩
  frame := by
    intro j other
    refine ⟨?_, id, Iff.rfl, Iff.rfl, Iff.rfl, fun _ none => none⟩
    intro mine
    rw [held] at mine
    exact absurd (Option.some.inj mine).symm other
  change := {
    identity := fun r found => .inr ⟨r, found, .refl r⟩
    cleared := by
      intro r found gone
      exact absurd (found.symm.trans gone) nofun
    issued := .inr ⟨call, rfl, issued⟩
    created := fun absent present => absurd absent present
    granted := fun j mem new => absurd mem new }

theorem allows_grant (inv : ControlInvariant s) (shared : k ∈ s.admission.shared)
    (absent : s.record = none) :
    controlDiscipline.Allows k s { s with admitted := k :: s.admitted } where
  inv := {
    record := inv.record
    journal := inv.journal
    guarded := List.forall_mem_cons.mpr ⟨shared, inv.guarded⟩
    admitted := fun _ => absent }
  frame := by
    intro j other
    refine ⟨fun held => ⟨held, rfl, rfl, rfl, rfl⟩, id, Iff.rfl, Iff.rfl, ?_, fun _ none => none⟩
    simp [other]
  change := {
    identity := fun r found => .inr ⟨r, found, .refl r⟩
    cleared := by
      intro r found
      rw [absent] at found
      cases found
    issued := .inl rfl
    created := fun _ present => absurd absent present
    granted := fun _ _ _ => absent }

end Steps

end DocumentSummarizer.Connect.Background
