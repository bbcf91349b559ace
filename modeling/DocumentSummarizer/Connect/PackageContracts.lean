import Mathlib.Data.List.Basic

/-! # Package lifecycle contracts

The records of `/var/lib/document-summarizer`: the operation in progress, the
quiesce intent that precedes it, and the receipts that outlive it.
-/

namespace DocumentSummarizer.Connect

inductive PackageControlError where
  | rootRequired
  | storage
  | conflict
  | manager
  deriving DecidableEq, Repr

def formatVersion : Nat := 2

def packageId : String := "document-summarizer"

/-- 256 KiB. -/
def maxRecordBytes : Nat := 262144

inductive PackageKind where
  | upgrade
  | remove
  | purge
  | reinstall
  deriving DecidableEq, Repr

inductive PackageDisposition where
  | forward
  | rollback
  deriving DecidableEq, Repr

inductive PackagePhase where
  | intentRecorded
  | publishersStopped
  | settling
  | finalizing
  deriving DecidableEq, Repr

inductive ParticipantSettlement where
  | pending
  | disabled
  | deferredEnabled
  | successorReady
  deriving DecidableEq, Repr

inductive PendingRestoreRecovery where
  | absent
  | ready (settlement : ParticipantSettlement)
  | stopAndRetry
  deriving DecidableEq, Repr

structure Participant where
  uid : UInt32
  user : String
  runtimeRoot : String
  runtimeDevice : Option UInt64
  runtimeInode : Option UInt64
  appDataRoot : String
  appDataDevice : UInt64
  appDataInode : UInt64
  controlRoot : String
  controlDevice : UInt64
  controlInode : UInt64
  managerLink : String
  managerParentDevice : UInt64
  managerParentInode : UInt64
  acknowledgementGeneration : String
  enabled : Bool
  settlement : ParticipantSettlement
  deriving DecidableEq, Repr

structure PackageRecord where
  disposition : PackageDisposition
  formatVersion : Nat
  packageId : String
  generation : String
  kind : PackageKind
  phase : PackagePhase
  sourceVersion : String
  targetVersion : String
  predecessorRemovalGeneration : Option String
  participants : List Participant
  deriving DecidableEq, Repr

structure RemovalReceipt where
  formatVersion : Nat
  packageId : String
  producerGeneration : String
  removedVersion : String
  participants : List Participant
  deriving DecidableEq, Repr

structure InstallReceipt where
  formatVersion : Nat
  packageId : String
  installGeneration : String
  predecessorRemovalGeneration : String
  installedVersion : String
  participants : List Participant
  deriving DecidableEq, Repr

inductive BootstrapPhase where
  | quarantining
  | quiesced
  | adopted
  deriving DecidableEq, Repr

structure BootstrapQuiesce where
  phase : BootstrapPhase
  legacyDevice : UInt64
  legacyInode : UInt64
  legacySha256 : String
  deriving DecidableEq, Repr

structure QuiesceIntent where
  generation : String
  kind : PackageKind
  sourceVersion : String
  targetVersion : String
  bootstrap : Option BootstrapQuiesce
  deriving DecidableEq, Repr

inductive PackageAction where
  | initializeRoot
  | prepareUpgrade (source target : String)
  | finishUpgrade (target : String)
  | abortRemove (target : String)
  | prepareRemove (target : String)
  | finishRemove (target : String)
  | finishPurge (target : String)
  | recoverInstall (target : String)
  | prepareReinstall (target : String)
  | adoptBootstrap
  deriving DecidableEq, Repr

/-! ## Validation -/

/-- What the code takes from the `uuid` crate and from `serde_json`. -/
structure Platform where
  isUuid : String → Bool
  recordBytes : PackageRecord → Nat
  removalReceiptBytes : RemovalReceipt → Nat
  installReceiptBytes : InstallReceipt → Nat

def increasing : List UInt32 → Bool
  | a :: b :: rest => decide (a < b) && increasing (b :: rest)
  | _ => true

def invalidRuntimeIdentity (participant : Participant) : Bool :=
  participant.runtimeDevice.isSome != participant.runtimeInode.isSome

/-- The participants are ordered by uid, each with a whole runtime identity or none. -/
def validParticipants (participants : List Participant) : Bool :=
  increasing (participants.map (·.uid)) && !participants.any invalidRuntimeIdentity

def validVersion (value : String) : Bool :=
  value != "" && value.utf8ByteSize ≤ 128 &&
    value.toList.all fun c => c.isAlphanum || c ∈ ['.', '+', ':', '~', '_', '-']

def validSha256 (value : String) : Bool :=
  value.utf8ByteSize == 64 && value.toList.all fun c => c.isDigit || ('a' ≤ c && c ≤ 'f')

/-- `validate` -/
def PackageRecord.validFor (platform : Platform) (record : PackageRecord) (kind : PackageKind)
    (target : String) : Bool :=
  record.formatVersion == Connect.formatVersion && record.packageId == Connect.packageId &&
  record.kind == kind && record.targetVersion == target &&
  (record.disposition == .forward ||
    (record.kind == .remove && (record.phase == .settling || record.phase == .finalizing))) &&
  platform.isUuid record.generation &&
  ((record.kind == .reinstall) == record.predecessorRemovalGeneration.isSome) &&
  validParticipants record.participants

/-- `validate_removal_receipt` -/
def RemovalReceipt.valid (platform : Platform) (receipt : RemovalReceipt) : Bool :=
  receipt.formatVersion == Connect.formatVersion && receipt.packageId == Connect.packageId &&
  platform.isUuid receipt.producerGeneration && validParticipants receipt.participants

/-- `validate_install_receipt` -/
def InstallReceipt.valid (platform : Platform) (receipt : InstallReceipt) : Bool :=
  receipt.formatVersion == Connect.formatVersion && receipt.packageId == Connect.packageId &&
  platform.isUuid receipt.installGeneration &&
  platform.isUuid receipt.predecessorRemovalGeneration && validParticipants receipt.participants

def BootstrapQuiesce.valid (bootstrap : BootstrapQuiesce) : Bool :=
  bootstrap.legacyDevice != 0 && bootstrap.legacyInode != 0 && validSha256 bootstrap.legacySha256

/-- The checks of `encode_quiesce_intent`. -/
def QuiesceIntent.encodable (platform : Platform) (intent : QuiesceIntent) : Bool :=
  platform.isUuid intent.generation && intent.kind != .reinstall &&
  validVersion intent.sourceVersion && validVersion intent.targetVersion &&
  intent.bootstrap.all fun bootstrap => intent.kind == .upgrade && bootstrap.valid

/-- What `read_quiesce_intent` further asks of an encoded intent. -/
def QuiesceIntent.readable (platform : Platform) (intent : QuiesceIntent) : Bool :=
  intent.encodable platform && (intent.kind == .upgrade || intent.kind == .remove)

end DocumentSummarizer.Connect
