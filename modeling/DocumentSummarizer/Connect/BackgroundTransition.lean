import DocumentSummarizer.Library.FileLock
import DocumentSummarizer.Library.Process

/-! # Background-mode transitions

The transition record of the user's control root, the service manager, and the
two locks.  Enabling and disabling the background service and the admission of a
job are processes over them.
-/

namespace DocumentSummarizer.Connect.Background

open Library

inductive TransitionKind where
  | enable
  | disable
  deriving DecidableEq, Repr

inductive TransitionDisposition where
  | forward
  | rollback
  deriving DecidableEq, Repr

inductive TransitionPhase where
  | intentRecorded
  | sourceStopped
  | managerEnabled
  | successorReady
  | publisherStopped
  | managerDisabled
  | rollbackTargetStopped
  | priorChoiceRestored
  deriving DecidableEq, Repr

structure StateIdentity where
  path : String
  device : Nat
  inode : Nat
  deriving DecidableEq, Repr

structure BackgroundTransition where
  formatVersion : Nat
  packageId : String
  packageVersion : String
  artifactScope : String
  generation : String
  kind : TransitionKind
  disposition : TransitionDisposition
  phase : TransitionPhase
  priorEnabled : Bool
  targetEnabled : Bool
  state : StateIdentity
  expectedV2InstanceId : Option String
  createdUnixMs : Nat
  gracefulDeadlineUnixMs : Nat
  forceDeadlineUnixMs : Nat
  controlDeadlineUnixMs : Nat
  deriving DecidableEq, Repr

inductive LifecycleControlError where
  | storage
  | invalidRecord
  | conflictingTransition
  | manager
  | readiness
  deriving DecidableEq, Repr

def formatVersion : Nat := 1

def packageId : String := "document-summarizer-deb"

/-- `CARGO_PKG_VERSION` -/
def packageVersion : String := "0.1.0"

def artifactScope : String := "shared-debian"

/-- `u64::saturating_add` -/
@[irreducible] def saturatingAdd (a b : Nat) : Nat :=
  min (a + b) (2 ^ 64 - 1)

namespace BackgroundTransition

def setAttemptDeadlines (transition : BackgroundTransition) (startedUnixMs : Nat) :
    BackgroundTransition :=
  { transition with
    gracefulDeadlineUnixMs := saturatingAdd startedUnixMs 35000
    forceDeadlineUnixMs := saturatingAdd startedUnixMs 40000
    controlDeadlineUnixMs := saturatingAdd startedUnixMs 45000 }

def withPhase (transition : BackgroundTransition) (phase : TransitionPhase) :
    BackgroundTransition :=
  { transition with phase := phase }

end BackgroundTransition

/-! ## The shared state -/

/-- `TransitionEffects`, without the query of the manager. -/
inductive Effect where
  | stopPublishers
  | enableAndStart
  | waitUntilReady
  | disableAndStop
  | restorePriorChoice
  | beforeClear
  deriving DecidableEq, Repr

/-- An effect that was issued, for the transition as it was then. -/
structure Call where
  effect : Effect
  transition : BackgroundTransition
  succeeded : Bool
  deriving DecidableEq, Repr

/-- The identity of a process. -/
abbrev Client := Nat

/-- The control root and the manager.  `admitted`, `journal` and `cleared` record what happened:
who holds a job admission guard, the effects issued so far with the latest first, and what the
holder of the control lock has cleared. -/
structure Control where
  record : Option BackgroundTransition
  enabled : Bool
  control : FileLock Client
  admission : FileLock Client
  admitted : List Client
  journal : List Call
  cleared : Option BackgroundTransition
  deriving DecidableEq

/-- What the environment answers a step. -/
structure Answer where
  /-- The operation of the step reports this error. -/
  error : Option LifecycleControlError
  /-- A write or a removal that reports an error took effect all the same. -/
  effective : Bool
  /-- Where a manager operation that reports an error leaves the manager. -/
  enabled : Bool
  unixMs : Nat
  /-- The canonical state path with its device and inode. -/
  state : StateIdentity
  newV4 : String
  deriving DecidableEq, Repr

abbrev Step := Process Control Answer LifecycleControlError

/-- One operation that the environment may refuse, and otherwise does `run`. -/
def operation {α : Type} (run : Answer → Control → Except LifecycleControlError α × Control) :
    Step α :=
  .atomic fun answer s =>
    match answer.error with
    | some e => (.error e, s)
    | none => run answer s

/-! ## Locks and the record -/

section Store

variable (k : Client)

def controlLock : Step Unit :=
  operation fun _ s =>
    match s.control.tryLock k with
    | none => (.error .conflictingTransition, s)
    | some lock => (.ok (), { s with control := lock, cleared := none })

def admissionLock (exclusive : Bool) : Step Unit :=
  operation fun _ s =>
    match if exclusive then s.admission.tryLock k else s.admission.tryLockShared k with
    | none => (.error .conflictingTransition, s)
    | some lock => (.ok (), { s with admission := lock })

def current : Step (Option BackgroundTransition) :=
  operation fun _ s => (.ok s.record, s)

def dropAdmissionLock (s : Control) : Control :=
  { s with admission := s.admission.unlock k }

/-- `atomic_write`: an error after the rename leaves the new record in place. -/
def atomicWrite (transition : BackgroundTransition) : Step Unit :=
  .atomic fun answer s =>
    match answer.error with
    | none => (.ok (), { s with record := some transition })
    | some e => (.error e, if answer.effective then { s with record := some transition } else s)

def removeRecord (transition : BackgroundTransition) : Step Unit :=
  .atomic fun answer s =>
    let removed := { s with record := none, cleared := some transition }
    match answer.error with
    | none => (.ok (), removed)
    | some e => (.error e, if answer.effective then removed else s)

def persistNew (transition : BackgroundTransition) : Step Unit := do
  admissionLock k true
  Process.releasing (do
    let current ← current
    if current.isSome then
      Process.fail .conflictingTransition
    else
      atomicWrite transition) (dropAdmissionLock k)

def persistExact (transition : BackgroundTransition) : Step Unit := do
  admissionLock k true
  Process.releasing (do
    match ← current with
    | none => Process.fail .invalidRecord
    | some current =>
      if current.generation ≠ transition.generation ∨ current.kind ≠ transition.kind ∨
          current.state ≠ transition.state then
        Process.fail .conflictingTransition
      else
        atomicWrite transition) (dropAdmissionLock k)

def clearExact (generation : String) : Step Unit := do
  admissionLock k true
  Process.releasing (do
    match ← current with
    | none => Process.fail .invalidRecord
    | some current =>
      if current.generation ≠ generation then
        Process.fail .conflictingTransition
      else
        removeRecord current) (dropAdmissionLock k)

end Store

/-! ## Effects -/

/-- An effect on the manager: one that fails may leave it anywhere `moves` allows. -/
def perform (effect : Effect) (transition : BackgroundTransition)
    (moves : Answer → Control → Bool) : Step Unit :=
  .atomic fun answer s =>
    match answer.error with
    | none => (.ok (),
        { s with
          enabled := moves answer s
          journal := ⟨effect, transition, true⟩ :: s.journal })
    | some e => (.error e,
        { s with
          enabled :=
            if effect = .enableAndStart ∨ effect = .disableAndStop ∨ effect = .restorePriorChoice
            then answer.enabled else s.enabled
          journal := ⟨effect, transition, false⟩ :: s.journal })

def managerEnabled : Step Bool :=
  operation fun _ s => (.ok s.enabled, s)

def stopPublishers (transition : BackgroundTransition) : Step Unit :=
  perform .stopPublishers transition fun _ s => s.enabled

def enableAndStart (transition : BackgroundTransition) : Step Unit :=
  perform .enableAndStart transition fun _ _ => true

def waitUntilReady (transition : BackgroundTransition) : Step Unit :=
  perform .waitUntilReady transition fun _ s => s.enabled

def disableAndStop (transition : BackgroundTransition) : Step Unit :=
  perform .disableAndStop transition fun _ _ => false

def restorePriorChoice (transition : BackgroundTransition) : Step Unit :=
  perform .restorePriorChoice transition fun _ _ => transition.priorEnabled

def beforeClear (transition : BackgroundTransition) : Step Unit :=
  perform .beforeClear transition fun _ s => s.enabled

def unixMs : Step Nat :=
  operation fun answer s => (.ok answer.unixMs, s)

/-! ## Transitions -/

def newTransition (kind : TransitionKind) (priorEnabled : Bool)
    (expectedV2InstanceId : Option String) : Step BackgroundTransition := do
  let (state, generation) ← operation fun answer s => (.ok (answer.state, answer.newV4), s)
  let createdUnixMs ← unixMs
  let transition : BackgroundTransition := {
    formatVersion := Background.formatVersion
    packageId := Background.packageId
    packageVersion := Background.packageVersion
    artifactScope := Background.artifactScope
    generation := generation
    kind := kind
    disposition := .forward
    phase := .intentRecorded
    priorEnabled := priorEnabled
    targetEnabled := kind == .enable
    state := state
    expectedV2InstanceId := expectedV2InstanceId
    createdUnixMs := createdUnixMs
    gracefulDeadlineUnixMs := 0
    forceDeadlineUnixMs := 0
    controlDeadlineUnixMs := 0 }
  return transition.setAttemptDeadlines createdUnixMs

def validateTransition (isUuid : String → Bool) (transition : BackgroundTransition) :
    Step Unit := do
  if transition.formatVersion ≠ Background.formatVersion ∨
      transition.packageId ≠ Background.packageId ∨
      transition.packageVersion ≠ Background.packageVersion ∨
      transition.artifactScope ≠ Background.artifactScope ∨
      isUuid transition.generation = false ∨
      transition.targetEnabled ≠ (transition.kind == .enable) then
    Process.fail .invalidRecord
  else
    let state ← operation fun answer s => (.ok answer.state, s)
    if transition.state ≠ state then
      Process.fail .invalidRecord

/-- The end of a rollback, from the restored choice on. -/
def clearRollback (k : Client) (transition : BackgroundTransition) : Step Unit := do
  if transition.priorEnabled then
    waitUntilReady transition
  beforeClear transition
  clearExact k transition.generation
  Process.fail .readiness

def restoreAndClear (k : Client) (transition : BackgroundTransition) : Step Unit := do
  restorePriorChoice transition
  let transition := transition.withPhase .priorChoiceRestored
  persistExact k transition
  clearRollback k transition

def resumeRollback (k : Client) (transition : BackgroundTransition) : Step Unit := do
  if transition.kind ≠ .enable then
    Process.fail .invalidRecord
  else
    match transition.phase with
    | .managerEnabled => do
      stopPublishers transition
      let transition := transition.withPhase .rollbackTargetStopped
      persistExact k transition
      restoreAndClear k transition
    | .rollbackTargetStopped => restoreAndClear k transition
    | .priorChoiceRestored => clearRollback k transition
    | _ => Process.fail .invalidRecord

/-- How far a forward transition still has to go. -/
def TransitionPhase.remaining : TransitionPhase → Nat
  | .intentRecorded => 4
  | .sourceStopped | .publisherStopped => 3
  | .managerEnabled | .managerDisabled => 2
  | .successorReady => 1
  | .rollbackTargetStopped | .priorChoiceRestored => 0

/-- The loop of `run`. -/
def advance (k : Client) (transition : BackgroundTransition) : Step Unit :=
  if transition.disposition = .rollback then
    resumeRollback k transition
  else
    match transition.kind, _found : transition.phase with
    | .enable, .intentRecorded => do
      stopPublishers transition
      let transition := transition.withPhase .sourceStopped
      persistExact k transition
      advance k transition
    | .enable, .sourceStopped => do
      enableAndStart transition
      let transition := transition.withPhase .managerEnabled
      persistExact k transition
      advance k transition
    | .enable, .managerEnabled => do
      match ← (waitUntilReady transition).attempt with
      | .error _ => do
        let now ← unixMs
        let transition :=
          { transition with disposition := .rollback }.setAttemptDeadlines now
        persistExact k transition
        resumeRollback k transition
      | .ok () => do
        let transition := transition.withPhase .successorReady
        persistExact k transition
        advance k transition
    | .enable, .successorReady => do
      beforeClear transition
      clearExact k transition.generation
    | .disable, .intentRecorded => do
      stopPublishers transition
      let transition := transition.withPhase .publisherStopped
      persistExact k transition
      advance k transition
    | .disable, .publisherStopped => do
      disableAndStop transition
      let transition := transition.withPhase .managerDisabled
      persistExact k transition
      advance k transition
    | .disable, .managerDisabled => do
      beforeClear transition
      clearExact k transition.generation
    | _, _ => Process.fail .invalidRecord
termination_by transition.phase.remaining
decreasing_by
  all_goals
    simp only [_found, BackgroundTransition.withPhase, TransitionPhase.remaining]
    decide

/-- `TransitionStore::run` -/
def run (isUuid : String → Bool) (k : Client) (requested : Option TransitionKind)
    (expectedV2InstanceId : Option String) : Step Unit := do
  controlLock k
  match ← current with
  | some existing => do
    validateTransition isUuid existing
    if requested.any (· != existing.kind) then
      Process.fail .conflictingTransition
    else
      let now ← unixMs
      let existing := existing.setAttemptDeadlines now
      persistExact k existing
      advance k existing
  | none => do
    match requested with
    | none => Process.fail .invalidRecord
    | some kind => do
      let priorEnabled ← managerEnabled
      let transition ← newTransition kind priorEnabled expectedV2InstanceId
      persistNew k transition
      advance k transition

/-- `enter_job_admission`: the guard keeps the shared lock until it is dropped. -/
def enterJobAdmission (k : Client) : Step Unit := do
  admissionLock k false
  let current ← current
  if current.isSome then
    Process.fail .conflictingTransition
  else
    Process.atomic fun _ s => (.ok (), { s with admitted := k :: s.admitted })

/-! ## The system -/

inductive Request where
  | run (requested : Option TransitionKind) (expectedV2InstanceId : Option String)
  | enterJobAdmission
  deriving DecidableEq, Repr

/-- Both locks go with the process, and so does its guard. -/
def releaseAll (k : Client) (s : Control) : Control :=
  { s with
    control := s.control.unlock k
    admission := s.admission.unlock k
    admitted := s.admitted.filter (· ≠ k) }

def clients (isUuid : String → Bool) :
    Processes Control Answer LifecycleControlError Unit Request Client where
  program
    | .run requested expected, k => run isUuid k requested expected
    | .enterJobAdmission, k => enterJobAdmission k
  release := releaseAll

/-- Before the first transition, with the manager in any choice. -/
structure Untouched (s : Control) : Prop where
  record : s.record = none
  control : s.control = .unlocked
  admission : s.admission = .unlocked
  admitted : s.admitted = []
  journal : s.journal = []
  cleared : s.cleared = none

end DocumentSummarizer.Connect.Background
