import DocumentSummarizer.Connect.PackageStore

/-! # Package lifecycle control

The actions that the maintainer scripts run, as programs over the package store.
The per-user providers are behind `Effects`: what they answer is the
environment's choice.
-/

namespace DocumentSummarizer.Connect

open Library

/-- `PackageEffects`, with the answers one run of an action receives. -/
structure Effects where
  discover : Except PackageControlError (List Participant)
  stop : Participant → Except PackageControlError Unit
  suppress : Participant → Except PackageControlError Unit
  restore : Participant → String → Except PackageControlError ParticipantSettlement
  recoverPendingRestore : Participant → String → Except PackageControlError PendingRestoreRecovery
  validateRestored :
    Participant → String → ParticipantSettlement → Except PackageControlError Unit
  cleanup : Participant → Except PackageControlError Unit
  refreshRuntimeIdentity : Participant → Except PackageControlError (Option (UInt64 × UInt64))
  /-- Copying the running executable to the controller's temporary. -/
  copyController : PackageRecord → Except PackageControlError Unit
  /-- Locking the files of each participant's control root. -/
  lockParticipantAuthorities : List Participant → Except PackageControlError Unit
  removeParticipantReceipts : Except PackageControlError Unit

/-- The effects of one run and the UUID it generates. -/
structure Environment where
  effects : Effects
  newV4 : String

section Actions

variable (platform : Platform) (env : Environment)

/-- `SystemEffects::prepare_controller`: a leftover temporary is replaced. -/
def prepareController (record : PackageRecord) : Program Unit := do
  let store ← Durable.read
  if record.generation ∈ store.controllers then
    return ()
  else
    if .controller record.generation ∈ store.temporaries then
      Durable.commit (·.dropDraft (.controller record.generation))
    Durable.commit (·.draft (.controller record.generation))
    Durable.lift (env.effects.copyController record)
    Durable.commit fun store =>
      let store := store.dropDraft (.controller record.generation)
      { store with controllers := record.generation :: store.controllers }

/-- `SystemEffects::retire_controller` -/
def retireController (record : PackageRecord) : Program Unit := do
  let store ← Durable.read
  if record.generation ∈ store.controllers then
    Durable.commit fun store =>
      { store with controllers := store.controllers.erase record.generation }
  else if record.phase = .finalizing then
    return ()
  else
    Durable.fail .storage

def ensureQuiesceIntent (kind : PackageKind) (source target : String)
    (generation : Option String) : Program QuiesceIntent := do
  ensure (validVersion source)
  ensure (validVersion target)
  let expected : QuiesceIntent := ⟨generation.getD env.newV4, kind, source, target, none⟩
  match ← platform.readQuiesce with
  | some existing =>
    ensure (existing == expected || (generation.isNone && existing.kind == kind &&
      existing.sourceVersion == source && existing.targetVersion == target))
    return existing
  | none =>
    platform.writeQuiesce expected
    return expected

/-- The runtime identity that a missing one is replaced by, written at once. -/
def refreshRuntime (record : PackageRecord) (done : List Participant) (participant : Participant)
    (rest : List Participant) : Program Participant := do
  if participant.runtimeDevice.isNone then
    match ← Durable.lift (env.effects.refreshRuntimeIdentity participant) with
    | none => return participant
    | some (device, inode) =>
      let refreshed :=
        { participant with runtimeDevice := some device, runtimeInode := some inode }
      { record with participants := done ++ refreshed :: rest }.write
      return refreshed
  else
    return participant

/-- The loop of `prepare_from_intent` over the participants after `done`. -/
def stopPublishers (record : PackageRecord) :
    List Participant → List Participant → Program (List Participant)
  | done, [] => return done
  | done, participant :: rest => do
    let participant ← refreshRuntime env record done participant rest
    Durable.lift (env.effects.stop participant)
    Durable.lift (env.effects.suppress participant)
    Durable.lift (env.effects.cleanup participant)
    stopPublishers record (done ++ [participant]) rest

def recordFromIntent (intent : QuiesceIntent) (participants : List Participant) :
    PackageRecord where
  disposition := .forward
  formatVersion := Connect.formatVersion
  packageId := Connect.packageId
  generation := intent.generation
  kind := intent.kind
  phase := .intentRecorded
  sourceVersion := intent.sourceVersion
  targetVersion := intent.targetVersion
  predecessorRemovalGeneration := none
  participants := participants

/-- `prepare_from_intent` once the record is on disk. -/
def continuePreparation (record : PackageRecord) : Program Unit := do
  prepareController env record
  if record.phase = .intentRecorded then
    let participants ← stopPublishers env record [] record.participants
    { record with participants := participants, phase := .publishersStopped }.write

def prepareFromIntent (intent : QuiesceIntent) : Program Unit := do
  let found ← platform.read
  let record ← match found with
    | some record => do
      ensure (record.validFor platform intent.kind intent.targetVersion)
      ensure (record.disposition == .forward)
      ensure (record.generation == intent.generation &&
        record.sourceVersion == intent.sourceVersion)
      pure record
    | none => do
      let participants ← Durable.lift env.effects.discover
      pure (recordFromIntent intent participants)
  Durable.lift (env.effects.lockParticipantAuthorities record.participants)
  if found.isNone then
    record.write
  continuePreparation env record

def stopEach : List Participant → Program Unit
  | [] => return ()
  | participant :: rest => do
    Durable.lift (env.effects.stop participant)
    Durable.lift (env.effects.suppress participant)
    Durable.lift (env.effects.cleanup participant)
    stopEach rest

/-- `prepare`, as a pending removal resumes it: it mints a generation of its own and
refreshes no runtime identity. -/
def prepare (kind : PackageKind) (source target : String) : Program Unit := do
  let found ← platform.read
  let record ← match found with
    | some record => do
      ensure (record.validFor platform kind target)
      ensure (record.disposition == .forward)
      pure record
    | none => do
      let participants ← Durable.lift env.effects.discover
      pure (recordFromIntent ⟨env.newV4, kind, source, target, none⟩ participants)
  Durable.lift (env.effects.lockParticipantAuthorities record.participants)
  if found.isNone then
    record.write
  prepareController env record
  if record.phase = .intentRecorded then
    stopEach env record.participants
    { record with phase := .publishersStopped }.write

/-! ## Finishing -/

def removalReceiptOf (record : PackageRecord) : RemovalReceipt where
  formatVersion := Connect.formatVersion
  packageId := Connect.packageId
  producerGeneration := record.generation
  removedVersion := record.targetVersion
  participants := record.participants

def writeRemovalReceipt (record : PackageRecord) : Program Unit := do
  let receipt := removalReceiptOf record
  match ← platform.readRemovalReceipt with
  | some existing => ensure (existing == receipt)
  | none =>
    writeThrough (.removalReceipt record.generation) fun store =>
      { store with removalReceipt := some receipt }

def installReceiptOf (record : PackageRecord) (predecessor : String) : InstallReceipt where
  formatVersion := Connect.formatVersion
  packageId := Connect.packageId
  installGeneration := record.generation
  predecessorRemovalGeneration := predecessor
  installedVersion := record.targetVersion
  participants := record.participants

def writeInstallReceipt (record : PackageRecord) : Program Unit := do
  let predecessor ← orConflict record.predecessorRemovalGeneration
  let receipt := installReceiptOf record predecessor
  let install : Program Unit := writeThrough (.installReceipt record.generation) fun store =>
    { store with installReceipt := some receipt }
  match ← platform.readInstallReceipt with
  | none => install
  | some existing => do
    ensure (existing.valid platform)
    if existing.installGeneration = record.generation then
      ensure (existing == receipt)
    else
      ensure (existing.installedVersion == record.sourceVersion)
      install

def validateExactRemovalReceipt (record : PackageRecord) : Program Unit := do
  let receipt ← orConflict (← platform.readRemovalReceipt)
  ensure (receipt.valid platform)
  ensure (receipt.producerGeneration == record.generation &&
    receipt.removedVersion == record.targetVersion && receipt.participants == record.participants)

def validateExactInstallReceipt (record : PackageRecord) : Program Unit := do
  let receipt ← orConflict (← platform.readInstallReceipt)
  ensure (receipt.valid platform)
  ensure (receipt.installGeneration == record.generation &&
    some receipt.predecessorRemovalGeneration == record.predecessorRemovalGeneration &&
    receipt.installedVersion == record.targetVersion &&
    receipt.participants == record.participants)

def removeExactRemovalReceipt (record : PackageRecord) : Program Unit := do
  match ← platform.readRemovalReceipt with
  | none => validateExactInstallReceipt platform record
  | some receipt => do
    ensure (receipt.valid platform)
    ensure (some receipt.producerGeneration == record.predecessorRemovalGeneration)
    Durable.commit fun store => { store with removalReceipt := none }

/-- Restores one participant outside the locks and checks that nothing moved meanwhile. -/
def restoreParticipant (record : PackageRecord) (participant : Participant) :
    Program ParticipantSettlement := do
  let restored := env.effects.restore participant record.generation
  Durable.lift (env.effects.lockParticipantAuthorities record.participants)
  let current ← orConflict (← platform.read)
  ensure (current.generation == record.generation && current.kind == record.kind &&
    current.disposition == record.disposition && current.phase == .settling &&
    current.participants == record.participants)
  let settlement ← Durable.lift restored
  Durable.lift (env.effects.validateRestored participant record.generation settlement)
  return settlement

/-- The settlement of one pending participant. -/
def settleParticipant (restoring : Bool) (record : PackageRecord) (participant : Participant) :
    Program ParticipantSettlement := do
  if restoring then
    match ← Durable.lift
        (env.effects.recoverPendingRestore participant record.generation) with
    | .ready settlement =>
      Durable.lift (env.effects.validateRestored participant record.generation settlement)
      return settlement
    | .absent =>
      Durable.lift (env.effects.cleanup participant)
      restoreParticipant platform env record participant
    | .stopAndRetry =>
      Durable.lift (env.effects.stop participant)
      Durable.lift (env.effects.cleanup participant)
      restoreParticipant platform env record participant
  else
    Durable.lift (env.effects.cleanup participant)
    return .disabled

/-- The loop of `finish` over the participants after `done`. -/
def settleParticipants (restoring : Bool) (record : PackageRecord) :
    List Participant → List Participant → Program (List Participant)
  | done, [] => return done
  | done, participant :: rest => do
    if participant.settlement ≠ .pending then
      settleParticipants restoring record (done ++ [participant]) rest
    else
      let participant ← refreshRuntime env record done participant rest
      let settlement ← settleParticipant platform env restoring
        { record with participants := done ++ participant :: rest } participant
      let settled := { participant with settlement := settlement }
      { record with participants := done ++ settled :: rest }.write
      settleParticipants restoring record (done ++ [settled]) rest

/-- The receipt that a settled removal or reinstall leaves. -/
def writeReceipt (kind : PackageKind) (restoring : Bool) (record : PackageRecord) :
    Program Unit :=
  if kind = .remove ∧ restoring = false then
    writeRemovalReceipt platform record
  else if kind = .reinstall then
    writeInstallReceipt platform record
  else
    return ()

def validateReceipt (kind : PackageKind) (restoring : Bool) (record : PackageRecord) :
    Program Unit :=
  if kind = .remove ∧ restoring = false then
    validateExactRemovalReceipt platform record
  else if kind = .reinstall then
    validateExactInstallReceipt platform record
  else
    return ()

/-- From the stopped publishers to the finalizing record. -/
def settle (kind : PackageKind) (restoring : Bool) (record : PackageRecord) :
    Program PackageRecord := do
  let record ←
    if record.phase = .publishersStopped then do
      let settling := { record with phase := .settling }
      settling.write
      pure settling
    else
      pure record
  if record.phase = .settling then
    let participants ← settleParticipants platform env restoring record [] record.participants
    let settled := { record with participants := participants }
    writeReceipt platform kind restoring settled
    let final := { settled with phase := .finalizing }
    final.write
    return final
  else
    ensure (!record.participants.any (·.settlement == .pending))
    validateReceipt platform kind restoring record
    return record

/-- The end of `finish`, once the record is finalizing. -/
def close (kind : PackageKind) (restoring : Bool) (record : PackageRecord) : Program Unit := do
  if restoring then
    retireController record
  if kind = .reinstall then
    removeExactRemovalReceipt platform record
  platform.clear record.generation

def finish (kind : PackageKind) (target : String) : Program Unit := do
  let record ← orConflict (← platform.read)
  ensure (record.validFor platform kind target)
  let restoring := kind != .remove || record.disposition == .rollback
  Durable.lift (env.effects.lockParticipantAuthorities record.participants)
  ensure (record.phase != .intentRecorded)
  let settled ← settle platform env kind restoring record
  close platform kind restoring settled

def abortRemove (target : String) : Program Unit := do
  ensure (validVersion target)
  let intent ← platform.readQuiesce
  ensure (intent.all fun intent => intent.kind == .remove && intent.sourceVersion == target &&
    intent.targetVersion == target && intent.bootstrap.isNone)
  match ← platform.read with
  | none =>
    match intent with
    | some intent => platform.clearQuiesce intent.generation
    | none => return ()
  | some record => do
    ensure (record.validFor platform .remove target)
    let receipt ← platform.readRemovalReceipt
    ensure (record.sourceVersion == target &&
      intent.all (·.generation == record.generation) &&
      !receipt.any (·.producerGeneration == record.generation))
    if record.disposition = .forward then
      ensure (record.phase == .intentRecorded || record.phase == .publishersStopped)
      Durable.lift (env.effects.lockParticipantAuthorities record.participants)
      { record with disposition := .rollback, phase := .settling }.write
    match intent with
    | some intent => platform.clearQuiesce intent.generation
    | none => pure ()
    finish platform env .remove target

/-! ## Reinstalling -/

/-- `adopt_reinstall_controller`: the controller of the removal becomes the reinstall's. -/
def adoptReinstallController (record : PackageRecord) (receipt : RemovalReceipt) :
    Program Unit := do
  let store ← Durable.read
  if record.generation ∈ store.controllers then
    ensure (receipt.producerGeneration ∉ store.controllers)
  else
    ensure (receipt.producerGeneration ∈ store.controllers)
    Durable.commit fun store =>
      { store with
        controllers := record.generation :: store.controllers.erase receipt.producerGeneration }

def recordFromReceipt (generation target : String) (receipt : RemovalReceipt) : PackageRecord where
  disposition := .forward
  formatVersion := Connect.formatVersion
  packageId := Connect.packageId
  generation := generation
  kind := .reinstall
  phase := .publishersStopped
  sourceVersion := receipt.removedVersion
  targetVersion := target
  predecessorRemovalGeneration := some receipt.producerGeneration
  participants := receipt.participants.map fun p => { p with settlement := .pending }

def prepareReinstall (target : String) : Program Unit := do
  let receipt ← orConflict (← platform.readRemovalReceipt)
  ensure (receipt.valid platform)
  let expected := recordFromReceipt env.newV4 target receipt
  match ← platform.read with
  | some record => do
    ensure (record.validFor platform .reinstall target)
    ensure (record.phase == .publishersStopped && record.sourceVersion == receipt.removedVersion &&
      record.predecessorRemovalGeneration == some receipt.producerGeneration &&
      record.participants == expected.participants)
    Durable.lift (env.effects.lockParticipantAuthorities record.participants)
    adoptReinstallController record receipt
  | none => do
    Durable.lift (env.effects.lockParticipantAuthorities expected.participants)
    expected.write
    adoptReinstallController expected receipt

/-! ## Adopting a bootstrap -/

/-- `open_bootstrap_quarantine`: the quarantined file, when it is there, has the recorded hash. -/
def openBootstrapQuarantine (intent : QuiesceIntent) : Program Bool := do
  let bootstrap ← orConflict intent.bootstrap
  ensure bootstrap.valid
  ensure (platform.isUuid intent.generation)
  let store ← Durable.read
  match store.quarantines.find? (·.1 = intent.generation) with
  | none => return false
  | some (_, sha256) => do
    ensure (sha256 == bootstrap.legacySha256)
    return true

def validateBootstrapQuarantine (intent : QuiesceIntent) (allowMissing : Bool) :
    Program Unit := do
  let present ← openBootstrapQuarantine platform intent
  ensure (present || allowMissing)

def removeBootstrapQuarantine (intent : QuiesceIntent) : Program Unit := do
  let bootstrap ← orConflict intent.bootstrap
  ensure (bootstrap.phase == .adopted)
  if ← openBootstrapQuarantine platform intent then
    Durable.commit fun store =>
      { store with quarantines := store.quarantines.filter (·.1 ≠ intent.generation) }

def adoptBootstrap (intent : QuiesceIntent) : Program Unit := do
  let bootstrap ← orConflict intent.bootstrap
  match bootstrap.phase with
  | .quarantining => Durable.fail .conflict
  | .quiesced => validateBootstrapQuarantine platform intent false
  | .adopted => validateBootstrapQuarantine platform intent true
  prepareFromIntent platform env intent
  let current ← orConflict (← platform.readQuiesce)
  ensure (current == intent)
  let adopted := { intent with bootstrap := some { bootstrap with phase := .adopted } }
  if bootstrap.phase ≠ .adopted then
    platform.writeQuiesce adopted
  removeBootstrapQuarantine platform adopted
  platform.clearQuiesce adopted.generation

/-! ## Purging -/

/-- `purge_settled_state`: any file it does not know is a conflict. -/
def purgeSettledState (record : Option PackageRecord) : Program Unit := do
  let store ← Durable.read
  ensure (store.quiesce.isNone && store.quarantines.isEmpty && store.temporaries.isEmpty)
  ensure (record.isSome || (store.removalReceipt.isNone && store.installReceipt.isNone &&
    store.record.isNone))
  match ← platform.readInstallReceipt with
  | some receipt => ensure (receipt.valid platform)
  | none => pure ()
  ensure (store.controllers.all fun generation =>
    platform.isUuid generation && record.all (·.generation == generation))
  ensure (store.controllers.length ≤ 1)
  Durable.lift env.effects.removeParticipantReceipts
  if store.installReceipt.isSome then
    Durable.commit fun store => { store with installReceipt := none }
  if store.removalReceipt.isSome then
    Durable.commit fun store => { store with removalReceipt := none }
  match record with
  | some record => platform.clear record.generation
  | none => pure ()
  if !store.controllers.isEmpty then
    Durable.commit fun store => { store with controllers := [] }

/-- The operation that a purge takes over: the removal in progress, the one its receipt
records, or the one that was only intended. -/
def purgedRecord (target : String) (intent : Option QuiesceIntent)
    (receipt : Option RemovalReceipt) : Program (Option PackageRecord) := do
  let record ← match ← platform.read with
    | some record => do
      ensure (record.disposition == .forward &&
        (record.kind == .remove || record.kind == .purge))
      ensure (record.validFor platform record.kind target)
      ensure (receipt.all fun receipt => receipt.producerGeneration == record.generation &&
        receipt.participants == record.participants)
      pure (some record)
    | none => pure (receipt.map fun receipt =>
        { recordFromIntent ⟨receipt.producerGeneration, .remove, receipt.removedVersion,
            receipt.removedVersion, none⟩ receipt.participants with phase := .finalizing })
  match record, intent with
  | some record, some intent => do
    ensure (record.generation == intent.generation &&
      record.sourceVersion == intent.sourceVersion)
    return some record
  | none, some intent => do
    let participants ← Durable.lift env.effects.discover
    return some (recordFromIntent { intent with kind := .remove, bootstrap := none } participants)
  | record, none => return record

def cleanupEach : List Participant → Program Unit
  | [] => return ()
  | participant :: rest => do
    Durable.lift (env.effects.cleanup participant)
    cleanupEach rest

/-- The rest of `finish_purge`, once its record is on disk. -/
def finishRecordedPurge : Program Unit := do
  let record ← orConflict (← platform.read)
  Durable.lift (env.effects.lockParticipantAuthorities record.participants)
  let final ←
    if record.phase ≠ .finalizing then do
      cleanupEach env record.participants
      let final := { record with
        participants := record.participants.map fun p => { p with settlement := .disabled }
        phase := .finalizing }
      final.write
      pure final
    else
      pure record
  ensure (final.participants.all (·.settlement == .disabled))
  purgeSettledState platform env (some final)

def finishPurge (target : String) : Program Unit := do
  ensure (validVersion target)
  let intent ← platform.readQuiesce
  ensure (intent.all fun intent => intent.kind == .remove && intent.targetVersion == target)
  let receipt ← platform.readRemovalReceipt
  ensure (receipt.all fun receipt => receipt.valid platform && receipt.removedVersion == target &&
    receipt.participants.all (·.settlement == .disabled))
  match ← purgedRecord platform env target intent receipt with
  | none => purgeSettledState platform env none
  | some record => do
    -- reinstall is forbidden durably before any effect
    let record := { record with kind := .purge }
    record.write
    prepareFromIntent platform env
      ⟨record.generation, .purge, record.sourceVersion, record.targetVersion, none⟩
    match intent with
    | some intent => platform.clearQuiesce intent.generation
    | none => pure ()
    finishRecordedPurge platform env

/-! ## Actions -/

def recoverInstall (target : String) : Program Unit := do
  let record ← orConflict (← platform.read)
  match record.kind with
  | .upgrade => finish platform env .upgrade target
  | .reinstall => finish platform env .reinstall target
  | .remove | .purge => Durable.fail .conflict

/-- A removal that was not finished is finished first. -/
def resumeRemoval : Program Unit := do
  match ← platform.read with
  | none => return ()
  | some record =>
    match record.kind with
    | .remove => do
      prepare platform env .remove record.sourceVersion record.targetVersion
      finish platform env .remove record.targetVersion
    | .reinstall => return ()
    | .upgrade | .purge => Durable.fail .conflict

def prepareOperation (kind : PackageKind) (source target : String) : Program Unit := do
  let intent ← ensureQuiesceIntent platform env kind source target none
  prepareFromIntent platform env intent
  platform.clearQuiesce intent.generation

/-- `run`, after the root check and with the controller lock held. -/
def run : PackageAction → Program Unit
  | .initializeRoot => return ()
  | .prepareUpgrade source target => prepareOperation platform env .upgrade source target
  | .prepareRemove target => prepareOperation platform env .remove target target
  | .adoptBootstrap => do
    let intent ← orConflict (← platform.readQuiesce)
    ensure (intent.kind == .upgrade)
    adoptBootstrap platform env intent
  | .finishUpgrade target => finish platform env .upgrade target
  | .abortRemove target => abortRemove platform env target
  | .finishRemove target => do
    let record ← platform.read
    ensure (!record.any (·.disposition == .rollback))
    finish platform env .remove target
  | .finishPurge target => finishPurge platform env target
  | .recoverInstall target => recoverInstall platform env target
  | .prepareReinstall target => do
    resumeRemoval platform env
    prepareReinstall platform env target

end Actions

end DocumentSummarizer.Connect
