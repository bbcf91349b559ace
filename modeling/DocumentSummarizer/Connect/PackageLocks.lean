import DocumentSummarizer.Connect.PackageHistory
import DocumentSummarizer.Library.FileLock
import DocumentSummarizer.Library.Process

/-! # Package control under its locks

The controller, the maintainer scripts and the providers as processes over one
package root.  What an action does to the files between two of its lock
operations is the sequential program of that part.
-/

namespace DocumentSummarizer.Connect

open Library

namespace Locking

/-- The identity of a process. -/
abbrev Pid := Nat

/-- Who asks to start: the user and the two roots it was started with. -/
structure Starter where
  uid : UInt32
  appDataRoot : String
  runtimeRoot : String
  deriving DecidableEq, Repr

/-- The package root with its three locks.  `admitted` and `started` record who holds a job
admission guard and who a startup guard. -/
structure PackageRoot where
  store : PackageStore
  controllerLock : FileLock Pid
  quiesceLock : FileLock Pid
  packageLock : FileLock Pid
  admitted : List Pid
  started : List (Pid × Starter)
  deriving DecidableEq

/-- What the environment answers a step. -/
structure Answer where
  /-- The operation of the step reports this error. -/
  error : Option PackageControlError
  /-- `validate_participant_directories` and the identity of the runtime directory. -/
  directories : Except PackageControlError (UInt64 × UInt64)

abbrev RootStep := Process PackageRoot Answer PackageControlError

section Locks

variable (k : Pid)

/-- A lock operation that waits until `enabled`, or fails. -/
def lockWhen (enabled : PackageRoot → Bool) (change : PackageRoot → PackageRoot) :
    RootStep Unit :=
  .step
    (fun answer s =>
      match answer.error with
      | some _ => some s
      | none => if enabled s then some (change s) else none)
    fun answer _ =>
      match answer.error with
      | some e => .done (.error e)
      | none => .done (.ok ())

def lockController : RootStep Unit :=
  lockWhen (·.controllerLock.isFree) fun s =>
    { s with controllerLock := s.controllerLock.takeExclusive k }

/-- `quiesce_lock(true)`, and `lock_exclusive_bounded` on it -/
def lockQuiesce : RootStep Unit :=
  lockWhen (·.quiesceLock.isFree) fun s =>
    { s with quiesceLock := s.quiesceLock.takeExclusive k }

/-- `lock`, and `lock_exclusive_bounded` on it -/
def lockPackage : RootStep Unit :=
  lockWhen (·.packageLock.isFree) fun s =>
    { s with packageLock := s.packageLock.takeExclusive k }

/-- `quiesce_lock(false)` -/
def shareQuiesce : RootStep Unit :=
  lockWhen (·.quiesceLock.exclusive.isNone) fun s =>
    { s with quiesceLock := s.quiesceLock.takeShared k }

/-- `lock_shared` -/
def sharePackage : RootStep Unit :=
  lockWhen (·.packageLock.exclusive.isNone) fun s =>
    { s with packageLock := s.packageLock.takeShared k }

def unlockQuiesce : RootStep Unit :=
  lockWhen (fun _ => true) fun s => { s with quiesceLock := s.quiesceLock.unlock k }

def unlockPackage : RootStep Unit :=
  lockWhen (fun _ => true) fun s => { s with packageLock := s.packageLock.unlock k }

end Locks

/-- The files of the root pass through the given states, one atomic change each. -/
def writes {α : Type} : List PackageStore → Except PackageControlError α → RootStep α
  | [], outcome => .done outcome
  | store :: rest, outcome =>
    .step (fun _ s => some { s with store := store }) fun _ _ => writes rest outcome

/-- Runs a sequential part of an action, from the files as they are now. -/
def perform {α : Type} (program : Program α) : RootStep α :=
  .step (fun _ s => some s) fun _ s => writes (program s.store).visited (program s.store).outcome

/-! ## The controller -/

section Actions

variable (platform : Platform) (env : Environment) (k : Pid)

/-- The restore of one participant: both locks are free while it runs. -/
def restoreUnlocked (record : PackageRecord) (participant : Participant) :
    RootStep ParticipantSettlement := do
  unlockPackage k
  unlockQuiesce k
  lockQuiesce k
  lockPackage k
  perform (restoreParticipant platform env record participant)

def settleParticipant (restoring : Bool) (record : PackageRecord) (participant : Participant) :
    RootStep ParticipantSettlement := do
  if restoring then
    match ← perform (Durable.lift
        (env.effects.recoverPendingRestore participant record.generation)) with
    | .ready settlement =>
      perform (Durable.lift
        (env.effects.validateRestored participant record.generation settlement))
      return settlement
    | .absent =>
      perform (Durable.lift (env.effects.cleanup participant))
      restoreUnlocked platform env k record participant
    | .stopAndRetry =>
      perform (Durable.lift (env.effects.stop participant))
      perform (Durable.lift (env.effects.cleanup participant))
      restoreUnlocked platform env k record participant
  else
    perform (Durable.lift (env.effects.cleanup participant))
    return .disabled

def settleParticipants (restoring : Bool) (record : PackageRecord) :
    List Participant → List Participant → RootStep (List Participant)
  | done, [] => return done
  | done, participant :: rest => do
    if participant.settlement ≠ .pending then
      settleParticipants restoring record (done ++ [participant]) rest
    else
      let participant ← perform (refreshRuntime env record done participant rest)
      let settlement ← settleParticipant platform env k restoring
        { record with participants := done ++ participant :: rest } participant
      let settled := { participant with settlement := settlement }
      perform (PackageRecord.write { record with participants := done ++ settled :: rest })
      settleParticipants restoring record (done ++ [settled]) rest

def settle (kind : PackageKind) (restoring : Bool) (record : PackageRecord) :
    RootStep PackageRecord := do
  let record ←
    if record.phase = .publishersStopped then do
      let settling := { record with phase := .settling }
      perform settling.write
      pure settling
    else
      pure record
  if record.phase = .settling then
    let participants ← settleParticipants platform env k restoring record [] record.participants
    let settled := { record with participants := participants }
    perform (writeReceipt platform kind restoring settled)
    let final := { settled with phase := .finalizing }
    perform final.write
    return final
  else
    perform (do
      ensure (!record.participants.any (·.settlement == .pending))
      validateReceipt platform kind restoring record)
    return record

def finish (kind : PackageKind) (target : String) : RootStep Unit := do
  let record ← perform (do
    let record ← orConflict (← platform.read)
    ensure (record.validFor platform kind target)
    Durable.lift (env.effects.lockParticipantAuthorities record.participants)
    ensure (record.phase != .intentRecorded)
    return record)
  let restoring := kind != .remove || record.disposition == .rollback
  let settled ← settle platform env k kind restoring record
  perform (close platform kind restoring settled)

/-- `abort_remove`, up to the finishing of the rolled-back removal. -/
def beginAbort (target : String) : Program Bool := do
  ensure (validVersion target)
  let intent ← platform.readQuiesce
  ensure (intent.all fun intent => intent.kind == .remove && intent.sourceVersion == target &&
    intent.targetVersion == target && intent.bootstrap.isNone)
  match ← platform.read with
  | none =>
    match intent with
    | some intent => do
      platform.clearQuiesce intent.generation
      return false
    | none => return false
  | some record => do
    ensure (record.validFor platform .remove target)
    let receipt ← platform.readRemovalReceipt
    ensure (record.sourceVersion == target &&
      intent.all (·.generation == record.generation) &&
      !receipt.any (·.producerGeneration == record.generation))
    if record.disposition = .forward then
      ensure (record.phase == .intentRecorded || record.phase == .publishersStopped)
      Durable.lift (env.effects.lockParticipantAuthorities record.participants)
      PackageRecord.write { record with disposition := .rollback, phase := .settling }
    match intent with
    | some intent => do
      platform.clearQuiesce intent.generation
      return true
    | none => return true

def abortRemove (target : String) : RootStep Unit := do
  if ← perform (beginAbort platform env target) then
    finish platform env k .remove target

def recoverInstall (target : String) : RootStep Unit := do
  let record ← perform (do orConflict (← platform.read))
  match record.kind with
  | .upgrade => finish platform env k .upgrade target
  | .reinstall => finish platform env k .reinstall target
  | .remove | .purge => Process.fail .conflict

def resumeRemoval : RootStep Unit := do
  match ← perform platform.read with
  | none => return ()
  | some record =>
    match record.kind with
    | .remove => do
      perform (prepare platform env .remove record.sourceVersion record.targetVersion)
      finish platform env k .remove record.targetVersion
    | .reinstall => return ()
    | .upgrade | .purge => Process.fail .conflict

def prepareOperation (kind : PackageKind) (source target : String) : RootStep Unit := do
  let intent ← perform (ensureQuiesceIntent platform env kind source target none)
  perform (prepareFromIntent platform env intent)
  lockPackage k
  perform (platform.clearQuiesce intent.generation)

/-- `adopt_bootstrap`, once the package lock is held. -/
def completeAdoption (intent : QuiesceIntent) (bootstrap : BootstrapQuiesce) : Program Unit := do
  let current ← orConflict (← platform.readQuiesce)
  ensure (current == intent)
  let adopted := { intent with bootstrap := some { bootstrap with phase := .adopted } }
  if bootstrap.phase ≠ .adopted then
    platform.writeQuiesce adopted
  removeBootstrapQuarantine platform adopted
  platform.clearQuiesce adopted.generation

def adoptBootstrap (intent : QuiesceIntent) : RootStep Unit := do
  let bootstrap ← perform (orConflict intent.bootstrap)
  match bootstrap.phase with
  | .quarantining => Process.fail .conflict
  | .quiesced => perform (validateBootstrapQuarantine platform intent false)
  | .adopted => perform (validateBootstrapQuarantine platform intent true)
  perform (prepareFromIntent platform env intent)
  lockPackage k
  perform (completeAdoption platform intent bootstrap)

/-- `run_with`, under all three locks -/
def runWith : PackageAction → RootStep Unit
  | .finishUpgrade target => finish platform env k .upgrade target
  | .abortRemove target => abortRemove platform env k target
  | .finishRemove target => do
    perform (do
      let record ← platform.read
      ensure (!record.any (·.disposition == .rollback)))
    finish platform env k .remove target
  | .finishPurge target => perform (finishPurge platform env target)
  | .recoverInstall target => recoverInstall platform env k target
  | .prepareReinstall target => do
    resumeRemoval platform env k
    perform (prepareReinstall platform env target)
  | .initializeRoot | .prepareUpgrade .. | .prepareRemove .. | .adoptBootstrap => return ()

/-- `run`, after the root check -/
def run (action : PackageAction) : RootStep Unit := do
  lockController k
  lockQuiesce k
  match action with
  | .prepareUpgrade source target => prepareOperation platform env k .upgrade source target
  | .prepareRemove target => prepareOperation platform env k .remove target target
  | .adoptBootstrap => do
    let intent ← perform (do
      let intent ← orConflict (← platform.readQuiesce)
      ensure (intent.kind == .upgrade)
      return intent)
    adoptBootstrap platform env k intent
  | action => do
    lockPackage k
    runWith platform env k action

end Actions

/-! ## The maintainer scripts -/

/-- What `postrm` takes back of a bootstrap that was not adopted. -/
def discardBootstrap : Program Unit := do
  let store ← Durable.read
  match store.quiesce with
  | none => return ()
  | some intent => do
    ensure store.record.isNone
    Durable.commit fun store =>
      { store with quarantines := store.quarantines.filter (·.1 ≠ intent.generation) }
    Durable.commit fun store => { store with quiesce := none }

/-- A part of `preinst` or `postrm`, which take the controller's locks with `flock -x`. -/
def script (k : Pid) (program : Program Unit) : RootStep Unit := do
  lockController k
  lockQuiesce k
  perform program

/-! ## The providers -/

section Providers

variable (platform : Platform) (k : Pid)

/-- A read of the store, which the environment may refuse. -/
def readStore {α : Type} (read : PackageStore → α) : RootStep α :=
  .atomic fun answer s =>
    match answer.error with
    | some e => (.error e, s)
    | none => (.ok (read s.store), s)

/-- `enter_admission_store`: the guard keeps both shared locks until it is dropped. -/
def enterAdmissionStore : RootStep Unit := do
  shareQuiesce k
  let intent ← readStore (·.quiesce)
  if intent.isSome then
    Process.fail .conflict
  else
    sharePackage k
    let record ← readStore (·.record)
    if record.isSome then
      Process.fail .conflict
    else
      .atomic fun _ s => (.ok (), { s with admitted := k :: s.admitted })

/-- The participants that may start while an operation settles. -/
def Starter.matches (starter : Starter) (participant : Participant) : Bool :=
  participant.uid == starter.uid && participant.appDataRoot == starter.appDataRoot &&
    participant.runtimeRoot == starter.runtimeRoot

/-- The operations and the phase in which a provider may start. -/
def restores (record : PackageRecord) : Bool :=
  (record.kind == .upgrade || record.kind == .reinstall ||
    (record.kind == .remove && record.disposition == .rollback)) && record.phase == .settling

def admits (record : PackageRecord) (starter : Starter) : Bool :=
  restores record && record.participants.any fun participant =>
    starter.matches participant && participant.enabled && participant.settlement == .pending

/-- A startup guard is granted. -/
def grantStartup (starter : Starter) : RootStep Unit :=
  .atomic fun _ s => (.ok (), { s with started := (k, starter) :: s.started })

def enterStartupAdmissionStore (starter : Starter) : RootStep Unit := do
  shareQuiesce k
  let intent ← readStore (·.quiesce)
  if intent.isSome then
    Process.fail .conflict
  else
    sharePackage k
    match ← readStore (·.record) with
    | none => grantStartup k starter
    | some record =>
      if record.validFor platform record.kind record.targetVersion = false ∨
          admits record starter = false then
        Process.fail .conflict
      else
        match record.participants.find? starter.matches with
        | none => Process.fail .conflict
        | some participant => do
          let identity ← .atomic fun answer s => (answer.directories, s)
          if some identity.1 ≠ participant.runtimeDevice ∨
              some identity.2 ≠ participant.runtimeInode then
            Process.fail .conflict
          else
            grantStartup k starter

end Providers

/-! ## The system -/

inductive Request where
  | run (env : Environment) (action : PackageAction)
  | preinst (version target generation : String) (legacy : BootstrapQuiesce)
  | postrm
  | enterAdmission
  | enterStartup (starter : Starter)

/-- Closing the files gives every lock and guard back. -/
def releaseAll (k : Pid) (s : PackageRoot) : PackageRoot :=
  { s with
    controllerLock := s.controllerLock.unlock k
    quiesceLock := s.quiesceLock.unlock k
    packageLock := s.packageLock.unlock k
    admitted := s.admitted.filter (· ≠ k)
    started := s.started.filter (·.1 ≠ k) }

def processes (platform : Platform) :
    Processes PackageRoot Answer PackageControlError Unit Request Pid where
  program
    | .run env action, k => run platform env k action
    | .preinst version target generation legacy, k =>
      script k (quarantineLegacy version target generation legacy)
    | .postrm, k => script k discardBootstrap
    | .enterAdmission, k => enterAdmissionStore k
    | .enterStartup starter, k => enterStartupAdmissionStore platform k starter
  release := releaseAll

/-- Any files, and nobody at work. -/
structure AtRest (s : PackageRoot) : Prop where
  controllerLock : s.controllerLock = .unlocked
  quiesceLock : s.quiesceLock = .unlocked
  packageLock : s.packageLock = .unlocked
  admitted : s.admitted = []
  started : s.started = []

end Locking

end DocumentSummarizer.Connect
