import DocumentSummarizer.Connect.Preparation

/-! # Histories of package operations

Completed operations leave the store at rest, with the receipts of the last
removal and the last reinstall.  A reinstall checks the second against the
version that was removed, which upgrades change.
-/

namespace DocumentSummarizer.Connect

open Library

/-! ## Operations -/

inductive Package where
  | installed (version : String)
  | removed (version : String)
  deriving DecidableEq, Repr

def Package.version : Package → String
  | .installed version => version
  | .removed version => version

/-- The action that ends an upgrade. -/
inductive UpgradeEnd where
  | recoverInstall
  | finishUpgrade
  deriving DecidableEq, Repr

def UpgradeEnd.action (target : String) : UpgradeEnd → PackageAction
  | .recoverInstall => .recoverInstall target
  | .finishUpgrade => .finishUpgrade target

/-- An operation that dpkg completes, with the environments of its two actions. -/
inductive Operation where
  | remove (prepare finish : Environment)
  | abortRemoval (prepare abort : Environment)
  | upgrade (target : String) (ends : UpgradeEnd) (prepare finish : Environment)
  /-- The quiesce record and the quarantined executable come from `preinst`. -/
  | bootstrapUpgrade (target generation : String) (legacy : BootstrapQuiesce) (ends : UpgradeEnd)
      (adopt finish : Environment)
  | reinstall (target : String) (prepare finish : Environment)

namespace Operation

/-- The generation that the operation is run under. -/
def generation : Operation → String
  | .remove prepare _ => prepare.newV4
  | .abortRemoval prepare _ => prepare.newV4
  | .upgrade _ _ prepare _ => prepare.newV4
  | .bootstrapUpgrade _ generation _ _ _ _ => generation
  | .reinstall _ prepare _ => prepare.newV4

def next : Package → Operation → Option Package
  | .installed version, .remove .. => some (.removed version)
  | .installed version, .abortRemoval .. => some (.installed version)
  | .installed _, .upgrade target .. => some (.installed target)
  | .installed _, .bootstrapUpgrade target .. => some (.installed target)
  | .removed _, .reinstall target .. => some (.installed target)
  | _, _ => none

end Operation

/-- What `preinst` leaves of a legacy executable. -/
def quarantineLegacy (version target generation : String) (legacy : BootstrapQuiesce) :
    Program Unit :=
  Durable.commit fun store =>
    { store with
      quiesce := some ⟨generation, .upgrade, version, target, some legacy⟩
      quarantines := (generation, legacy.legacySha256) :: store.quarantines }

def Operation.program (platform : Platform) (version : String) : Operation → Program Unit
  | .remove prepare finish => do
    run platform prepare (.prepareRemove version)
    run platform finish (.finishRemove version)
  | .abortRemoval prepare abort => do
    run platform prepare (.prepareRemove version)
    run platform abort (.abortRemove version)
  | .upgrade target ends prepare finish => do
    run platform prepare (.prepareUpgrade version target)
    run platform finish (ends.action target)
  | .bootstrapUpgrade target generation legacy ends adopt finish => do
    quarantineLegacy version target generation legacy
    run platform adopt .adoptBootstrap
    run platform finish (ends.action target)
  | .reinstall target prepare finish => do
    run platform prepare (.prepareReinstall target)
    run platform finish (.recoverInstall target)

/-- The operations one after the other, each from the package that the last one left. -/
def history (platform : Platform) : Package → List Operation → Program Unit
  | _, [] => return ()
  | package, operation :: rest => do
    operation.program platform package.version
    match operation.next package with
    | some next => history platform next rest
    | none => return ()

/-- dpkg can issue the operations in this order. -/
def permitted : Package → List Operation → Bool
  | _, [] => true
  | package, operation :: rest =>
    match operation.next package with
    | some next => permitted next rest
    | none => false

/-- The version of the last reinstall, after this operation. -/
def Operation.lastReinstalled (last : Option String) : Operation → Option String
  | .reinstall target _ _ => some target
  | _ => last

/-- A reinstall finds no receipt of an earlier one, or one of the version that was removed. -/
def Operation.compatible (package : Package) (last : Option String) : Operation → Bool
  | .reinstall .. => last.all (· == package.version)
  | _ => true

/-- Every reinstall of a package that was reinstalled before removes the version that the last
reinstall put there: no upgrade changed it in between. -/
def compatible : Package → Option String → List Operation → Bool
  | _, _, [] => true
  | package, last, operation :: rest =>
    operation.compatible package last &&
      match operation.next package with
      | some next => compatible next (operation.lastReinstalled last) rest
      | none => true

/-- Every effect succeeds, and the operation's own data are valid. -/
def Operation.Sound (platform : Platform) : Operation → Prop
  | .remove prepare finish =>
    platform.isUuid prepare.newV4 = true ∧ prepare.effects.Discovering platform ∧
      prepare.effects.Succeed ∧ finish.effects.Succeed
  | .abortRemoval prepare abort =>
    platform.isUuid prepare.newV4 = true ∧ prepare.effects.Discovering platform ∧
      prepare.effects.Succeed ∧ abort.effects.Succeed
  | .upgrade target _ prepare finish =>
    platform.isUuid prepare.newV4 = true ∧ prepare.effects.Discovering platform ∧
      prepare.effects.Succeed ∧ finish.effects.Succeed ∧ validVersion target = true
  | .bootstrapUpgrade target generation legacy _ adopt finish =>
    platform.isUuid generation = true ∧ adopt.effects.Discovering platform ∧
      adopt.effects.Succeed ∧ finish.effects.Succeed ∧ validVersion target = true ∧
      legacy.valid = true ∧ legacy.phase = .quiesced
  | .reinstall target prepare finish =>
    platform.isUuid prepare.newV4 = true ∧ prepare.effects.Succeed ∧ finish.effects.Succeed ∧
      validVersion target = true

/-! ## The store at rest -/

def atRest (removal : Option RemovalReceipt) (install : Option InstallReceipt)
    (controllers : List String) : PackageStore :=
  { PackageStore.empty with
    removalReceipt := removal, installReceipt := install, controllers := controllers }

/-- The receipt of the last reinstall. -/
inductive Reinstalled (platform : Platform) (used : List String) :
    Option String → Option InstallReceipt → Prop where
  | never : Reinstalled platform used none none
  | once (receipt : InstallReceipt) (header : receipt.WellFormed platform)
      (trusted : Trusted platform receipt.participants)
      (known : receipt.installGeneration ∈ used) :
      Reinstalled platform used (some receipt.installedVersion) (some receipt)

/-- The store between two operations, with the generations used so far. -/
inductive Between (platform : Platform) (used : List String) (last : Option String) :
    Package → PackageStore → Prop where
  | installed (version : String) (valid : validVersion version = true)
      (install : Option InstallReceipt) (reinstalled : Reinstalled platform used last install) :
      Between platform used last (.installed version) (atRest none install [])
  | removed (receipt : RemovalReceipt) (header : receipt.WellFormed platform)
      (trusted : Trusted platform receipt.participants)
      (known : receipt.producerGeneration ∈ used) (install : Option InstallReceipt)
      (reinstalled : Reinstalled platform used last install) :
      Between platform used last (.removed receipt.removedVersion)
        (atRest (some receipt) install [receipt.producerGeneration])

theorem Reinstalled.more {platform : Platform} {used : List String} {last : Option String}
    {install : Option InstallReceipt} (h : Reinstalled platform used last install)
    (generation : String) : Reinstalled platform (generation :: used) last install := by
  cases h with
  | never => exact .never
  | once receipt header trusted known =>
      exact .once receipt header trusted (List.mem_cons_of_mem _ known)

theorem Reinstalled.sized {platform : Platform} {used : List String} {last : Option String}
    {install : Option InstallReceipt} (h : Reinstalled platform used last install) :
    Sized platform.installReceiptBytes install := by
  cases h with
  | never => nofun
  | once receipt header trusted _ =>
      rintro _ ⟨⟩
      exact trusted.installReceipt receipt header (.refl _)

/-! ## Preparing from a store at rest -/

section Preparing

variable {platform : Platform} {env : Environment} {store : PackageStore}

theorem prepareController_installs {record : PackageRecord} (none : store.controllers = [])
    (clean : store.temporaries = []) :
    Durable.Meets (prepareController env record) store
      (fun _ t => t = { store with controllers := [record.generation] }) (Unsuccessful env)
      Anywhere := by
  simp only [prepareController, Durable.meets_bind, Durable.meets_read, none, clean,
    List.not_mem_nil, if_false, Durable.meets_commit]
  refine ⟨trivial, effect_meets (fun succeed => succeed.copyController record) ⟨trivial, ?_⟩⟩
  simp only [PackageStore.dropDraft_draft, none, clean]

/-- The record of a finished preparation. -/
abbrev stoppedRecord (intent : QuiesceIntent) (participants : List Participant) : PackageRecord :=
  { recordFromIntent intent participants with phase := .publishersStopped }

theorem prepareFromIntent_installs {intent : QuiesceIntent}
    (discovering : env.effects.Discovering platform) (idle : store.record = none)
    (none : store.controllers = []) (clean : store.temporaries = []) :
    Durable.Meets (prepareFromIntent platform env intent) store
      (fun _ t => ∃ ps, Trusted platform ps ∧
        t = { store with
          record := some (stoppedRecord intent ps), controllers := [intent.generation] })
      (Unsuccessful env) Anywhere := by
  have sized : Sized platform.recordBytes store.record := by
    rw [idle]
    nofun
  have absent : ∀ g, .record g ∉ store.temporaries := by
    intro g
    rw [clean]
    exact List.not_mem_nil
  unfold prepareFromIntent continuePreparation
  simp only [Durable.meets_bind, meets_read sized, idle, Option.isNone_none, if_true,
    Durable.meets_pure]
  refine Durable.meets_lift.mpr ⟨?_, ?_⟩
  · intro participants discovered
    have trusted := discovering participants discovered
    refine effect_meets (fun succeed => succeed.lockParticipantAuthorities _) ?_
    refine (meets_write (absent _)).mpr ⟨trivial, trivial, ?_⟩
    refine (prepareController_installs ?_ ?_).weaken ?_ (fun _ _ failed => failed)
      fun _ stays => stays
    · exact none
    · exact clean
    rintro _ t rfl
    simp only [recordFromIntent, if_true, Durable.meets_bind]
    refine (@stopPublishers_meets env Anywhere
      { store with controllers := [intent.generation] } (recordFromIntent intent participants)
      [] participants (absent _) fun _ _ => ⟨trivial, trivial⟩).weaken ?_
      (fun _ _ failed => failed) fun _ stays => stays
    rintro qs t ⟨refreshed, rfl⟩
    refine (meets_write ?_).mpr ⟨trivial, trivial, ?_⟩
    · exact absent _
    · exact ⟨qs, trusted.same refreshed.sameParticipants, rfl⟩
  · intro e failure succeed
    obtain ⟨participants, success⟩ := succeed.discover
    rw [success] at failure
    cases failure

theorem prepareOperation_prepares {kind : PackageKind} {source target : String}
    {install : Option InstallReceipt} (kinds : kind = .upgrade ∨ kind = .remove)
    (uuid : platform.isUuid env.newV4 = true) (validSource : validVersion source = true)
    (validTarget : validVersion target = true) (discovering : env.effects.Discovering platform) :
    Durable.Meets (prepareOperation platform env kind source target) (atRest none install [])
      (fun _ t => ∃ ps, Trusted platform ps ∧
        t = (atRest none install [env.newV4]).withRecord
          (stoppedRecord (freshIntent env kind source target) ps))
      (Unsuccessful env) Anywhere := by
  have readable : (freshIntent env kind source target).readable platform = true := by
    rcases kinds with rfl | rfl <;>
      simp [QuiesceIntent.readable, QuiesceIntent.encodable, freshIntent, uuid, validSource,
        validTarget]
  have encodable : (freshIntent env kind source target).encodable platform = true := by
    rw [QuiesceIntent.readable, Bool.and_eq_true] at readable
    exact readable.1
  have quiesce : (atRest none install []).quiesce = none := rfl
  have none_readable : ∀ intent, (atRest none install []).quiesce = some intent →
      intent.readable platform = true := by rintro _ ⟨⟩
  unfold prepareOperation ensureQuiesceIntent Platform.writeQuiesce
  simp only [Durable.meets_bind, meets_ensure, validSource, validTarget,
    meets_readQuiesce none_readable, quiesce, Bool.true_eq_false, false_implies, and_true, true_implies]
  refine ⟨fun _ => ?_, fun refused => ?_⟩
  · refine (meets_writeThrough List.not_mem_nil).mpr ⟨trivial, trivial, ?_⟩
    refine Durable.meets_pure.mpr ?_
    refine (prepareFromIntent_installs discovering rfl rfl rfl).weaken ?_
      (fun _ _ failed => failed) fun _ stays => stays
    rintro _ t ⟨ps, trusted, rfl⟩
    exact (meets_clearQuiesce rfl readable).mpr ⟨trivial, ps, trusted, rfl⟩
  · cases encodable.symm.trans refused

theorem openBootstrapQuarantine_meets {intent : QuiesceIntent} {bootstrap : BootstrapQuiesce}
    {failed : PackageControlError → PackageStore → Prop}
    {post : Bool → PackageStore → Prop} (own : intent.bootstrap = some bootstrap)
    (valid : bootstrap.valid = true) (uuid : platform.isUuid intent.generation = true)
    (found : store.quarantines = [(intent.generation, bootstrap.legacySha256)])
    (after : post true store) :
    Durable.Meets (openBootstrapQuarantine platform intent) store post failed Anywhere := by
  simp only [openBootstrapQuarantine, Durable.meets_bind, own, orConflict, Durable.meets_pure,
    meets_ensure, valid, uuid, Durable.meets_read, found, List.find?_cons, decide_true,
    beq_self_eq_true, Bool.true_eq_false, false_implies, and_true, true_implies]
  exact after

/-- The adoption of a quarantined legacy executable, as a preparation of the upgrade. -/
theorem adoptBootstrap_prepares {version target generation : String} {legacy : BootstrapQuiesce}
    {install : Option InstallReceipt} (uuid : platform.isUuid generation = true)
    (validSource : validVersion version = true) (validTarget : validVersion target = true)
    (validLegacy : legacy.valid = true) (quiesced : legacy.phase = .quiesced)
    (discovering : env.effects.Discovering platform) :
    Durable.Meets (do
        quarantineLegacy version target generation legacy
        run platform env .adoptBootstrap) (atRest none install [])
      (fun _ t => ∃ ps, Trusted platform ps ∧
        t = (atRest none install [generation]).withRecord
          (stoppedRecord ⟨generation, .upgrade, version, target, none⟩ ps))
      (Unsuccessful env) Anywhere := by
  obtain ⟨phase, device, inode, sha256⟩ := legacy
  cases quiesced
  have intent_readable : ∀ phase, QuiesceIntent.readable platform
      ⟨generation, .upgrade, version, target, some ⟨phase, device, inode, sha256⟩⟩ = true := by
    intro phase
    have valid : BootstrapQuiesce.valid ⟨phase, device, inode, sha256⟩ = true := validLegacy
    simp [QuiesceIntent.readable, QuiesceIntent.encodable, uuid, validSource, validTarget, valid]
  have intent_encodable : QuiesceIntent.encodable platform
      ⟨generation, .upgrade, version, target, some ⟨.adopted, device, inode, sha256⟩⟩ = true := by
    have readable := intent_readable .adopted
    rw [QuiesceIntent.readable, Bool.and_eq_true] at readable
    exact readable.1
  have found : ∀ (s : PackageStore) (intent : QuiesceIntent), s.quiesce = some intent →
      intent.readable platform = true → ∀ other, s.quiesce = some other →
        other.readable platform = true := by
    intro s intent same readable other own
    obtain rfl := Option.some.inj (same.symm.trans own)
    exact readable
  simp only [quarantineLegacy, Durable.meets_bind, Durable.meets_commit, run]
  refine ⟨trivial, (meets_readQuiesce (found _ _ rfl (intent_readable .quiesced))).mpr ?_⟩
  simp only [orConflict, Durable.meets_pure, meets_ensure, adoptBootstrap, Durable.meets_bind,
    beq_self_eq_true, Bool.true_eq_false, false_implies, and_true, true_implies,
    validateBootstrapQuarantine]
  refine openBootstrapQuarantine_meets rfl validLegacy uuid rfl ?_
  simp only [Bool.true_or, Bool.true_eq_false, false_implies, and_true, true_implies]
  refine (prepareFromIntent_installs discovering ?_ ?_ ?_).weaken ?_ (fun _ _ failed => failed)
    fun _ stays => stays
  · rfl
  · rfl
  · rfl
  rintro _ t ⟨ps, trusted, rfl⟩
  refine (meets_readQuiesce (found _ _ rfl (intent_readable .quiesced))).mpr ?_
  simp only [Durable.meets_pure, beq_self_eq_true, Bool.true_eq_false, false_implies, and_true,
    true_implies, ne_eq, reduceCtorEq, not_false_eq_true, if_true, Platform.writeQuiesce,
    Durable.meets_bind, meets_ensure, intent_encodable, removeBootstrapQuarantine, orConflict]
  refine (meets_writeThrough List.not_mem_nil).mpr ⟨trivial, trivial, ?_⟩
  refine openBootstrapQuarantine_meets rfl validLegacy uuid rfl ?_
  simp only [if_true, Durable.meets_commit]
  refine ⟨trivial, (meets_clearQuiesce rfl (intent_readable .adopted)).mpr ⟨trivial, ps, trusted, ?_⟩⟩
  simp only [PackageStore.withRecord, atRest, PackageStore.empty, stoppedRecord, recordFromIntent]
  simp

end Preparing

section Completing

variable {platform : Platform} {env : Environment} {install : Option InstallReceipt}

theorem finishUpgrade_completes {version target generation : String} {ps : List Participant}
    (ends : UpgradeEnd) (uuid : platform.isUuid generation = true)
    (validSource : validVersion version = true) (validTarget : validVersion target = true)
    (trusted : Trusted platform ps) :
    Durable.Meets (run platform env (ends.action target))
      ((atRest none install [generation]).withRecord
        (stoppedRecord ⟨generation, .upgrade, version, target, none⟩ ps))
      (fun _ t => t = atRest none install []) (Unsuccessful env) Anywhere := by
  have readable : QuiesceIntent.readable platform ⟨generation, .upgrade, version, target, none⟩
      = true := by
    simp [QuiesceIntent.readable, QuiesceIntent.encodable, uuid, validSource, validTarget]
  have preparing : Preparing platform ⟨generation, .upgrade, version, target, none⟩ _ :=
    .stopped ps trusted
  have finishes : Durable.Meets (finish platform env .upgrade target)
      ((atRest none install [generation]).withRecord
        (stoppedRecord ⟨generation, .upgrade, version, target, none⟩ ps))
      (fun _ t => t = atRest none install []) (Unsuccessful env) Anywhere := by
    refine (finish_restores rfl (preparing.wellFormed readable) trusted
      (preparing.validFor readable) (.inl rfl) List.not_mem_nil (.inl rfl)).weaken ?_
      (fun _ _ failed => failed) fun _ stays => stays
    rintro _ t rfl
    simp only [PackageStore.withRecord, atRest, stoppedRecord, recordFromIntent, List.erase_cons_head]
    rfl
  cases ends with
  | finishUpgrade => exact finishes
  | recoverInstall =>
      have sized := preparing.sized readable
      simp only [UpgradeEnd.action, run, recoverInstall, Durable.meets_bind]
      refine (meets_read sized).mpr ?_
      exact Durable.meets_pure.mpr finishes

theorem removal_readable {version generation : String} (uuid : platform.isUuid generation = true)
    (valid : validVersion version = true) :
    QuiesceIntent.readable platform ⟨generation, .remove, version, version, none⟩ = true := by
  simp [QuiesceIntent.readable, QuiesceIntent.encodable, uuid, valid]

theorem finishRemove_completes {version generation : String} {ps : List Participant}
    (uuid : platform.isUuid generation = true) (valid : validVersion version = true)
    (trusted : Trusted platform ps) :
    Durable.Meets (run platform env (.finishRemove version))
      ((atRest none install [generation]).withRecord
        (stoppedRecord ⟨generation, .remove, version, version, none⟩ ps))
      (fun _ t => ∃ qs, Trusted platform qs ∧
        t = atRest (some ⟨formatVersion, packageId, generation, version, qs⟩) install [generation])
      (Unsuccessful env) Anywhere := by
  have readable := removal_readable uuid valid
  have preparing : Preparing platform ⟨generation, .remove, version, version, none⟩ _ :=
    .stopped ps trusted
  simp only [run, Durable.meets_bind]
  refine (meets_read (preparing.sized readable)).mpr (meets_ensure.mpr
    ⟨fun _ => ?_, (by rintro ⟨⟩)⟩)
  refine finish_meets (fun _ _ failed => failed) rfl (preparing.wellFormed readable) trusted
    (preparing.validFor readable) (.inl rfl) List.not_mem_nil ?_
  intro qs same
  have later : Trusted platform qs := trusted.same same
  have forward : (PackageKind.remove != .remove || (stoppedRecord
      ⟨generation, .remove, version, version, none⟩ ps).disposition == .rollback) = false := rfl
  simp only [forward, writeReceipt, and_self, if_true, writeRemovalReceipt, Durable.meets_bind]
  refine (meets_readRemovalReceipt ?_).mpr ?_
  · rintro _ ⟨⟩
  refine (meets_writeThrough List.not_mem_nil).mpr ⟨trivial, trivial, List.not_mem_nil, ?_⟩
  simp only [close, Bool.false_eq_true, reduceCtorEq, if_false]
  refine clear_meets rfl rfl ((preparing.wellFormed readable).settle _ _ qs) later ?_
  exact ⟨qs, later, rfl⟩

theorem abortRemove_completes {prepare : Environment} {version : String} {ps : List Participant}
    (uuid : platform.isUuid prepare.newV4 = true) (valid : validVersion version = true)
    (trusted : Trusted platform ps) :
    Durable.Meets (run platform env (.abortRemove version))
      ((atRest none install [prepare.newV4]).withRecord
        (stoppedRecord (freshIntent prepare .remove version version) ps))
      (fun _ t => t = atRest none install []) (Unsuccessful env) Anywhere := by
  have idle : Idle platform prepare (atRest none install []) :=
    ⟨rfl, rfl, List.not_mem_nil, List.not_mem_nil, nofun, nofun⟩
  have interrupted : Interrupted platform (freshIntent prepare .remove version version)
      (atRest none install []) ((atRest none install [prepare.newV4]).withRecord
        (stoppedRecord (freshIntent prepare .remove version version) ps)) := by
    refine ⟨removal_readable uuid valid, .inl rfl, ?_, nofun, rfl⟩
    rintro _ ⟨⟩
    exact .stopped ps trusted
  refine (abortRemove_meets idle interrupted List.not_mem_nil).weaken ?_
    (fun _ _ failed => failed) fun _ stays => stays
  rintro _ t rfl
  simp [PackageStore.aborted, PackageStore.withRecord, atRest, PackageStore.empty]

/-! ## Reinstalling a removed package -/

theorem recordFromReceipt_wellFormed {receipt : RemovalReceipt} {generation target : String}
    (header : receipt.WellFormed platform) (uuid : platform.isUuid generation = true)
    (validTarget : validVersion target = true) :
    (recordFromReceipt generation target receipt).WellFormed platform := by
  refine ⟨rfl, rfl, uuid, header.removed, validTarget, ?_⟩
  rintro _ ⟨⟩
  exact header.producer

theorem recordFromReceipt_trusted {receipt : RemovalReceipt} {generation target : String}
    (trusted : Trusted platform receipt.participants) :
    Trusted platform (recordFromReceipt generation target receipt).participants :=
  trusted.same (.settleAll _ .pending)

theorem prepareReinstall_prepares {receipt : RemovalReceipt} {target : String}
    (header : receipt.WellFormed platform) (trusted : Trusted platform receipt.participants)
    (fresh : env.newV4 ≠ receipt.producerGeneration) :
    Durable.Meets (run platform env (.prepareReinstall target))
      (atRest (some receipt) install [receipt.producerGeneration])
      (fun _ t => t = (atRest (some receipt) install [env.newV4]).withRecord
        (recordFromReceipt env.newV4 target receipt))
      (Unsuccessful env) Anywhere := by
  have sized : Sized platform.removalReceiptBytes
      (atRest (some receipt) install [receipt.producerGeneration]).removalReceipt := by
    rintro _ ⟨⟩
    exact trusted.removalReceipt receipt header (.refl _)
  have none_sized : Sized platform.recordBytes
      (atRest (some receipt) install [receipt.producerGeneration]).record := by rintro _ ⟨⟩
  have valid : receipt.valid platform = true := by
    simp [RemovalReceipt.valid, header.format, header.package, header.producer, trusted.valid]
  simp only [run, resumeRemoval, prepareReinstall, Durable.meets_bind]
  refine (meets_read none_sized).mpr (Durable.meets_pure.mpr ?_)
  refine (meets_readRemovalReceipt sized).mpr (Durable.meets_pure.mpr ?_)
  refine meets_ensure.mpr ⟨fun _ => ?_, fun refused => by
    cases valid.symm.trans refused⟩
  refine (meets_read none_sized).mpr (Durable.meets_bind.mpr ?_)
  refine effect_meets (fun succeed => succeed.lockParticipantAuthorities _)
    (Durable.meets_bind.mpr ?_)
  refine (meets_write ?_).mpr ⟨trivial, trivial, ?_⟩
  · exact List.not_mem_nil
  have absent : (recordFromReceipt env.newV4 target receipt).generation ∉
      ((atRest (some receipt) install [receipt.producerGeneration]).withRecord
        (recordFromReceipt env.newV4 target receipt)).controllers :=
    fun mem => fresh (List.mem_singleton.mp mem)
  have present : receipt.producerGeneration ∈
      ((atRest (some receipt) install [receipt.producerGeneration]).withRecord
        (recordFromReceipt env.newV4 target receipt)).controllers :=
    List.mem_singleton.mpr rfl
  simp only [adoptReinstallController, Durable.meets_bind, Durable.meets_read, absent, if_false,
    meets_ensure, present, decide_true, Durable.meets_commit]
  refine ⟨fun _ => ⟨trivial, ?_⟩, (by rintro ⟨⟩)⟩
  simp only [PackageStore.withRecord, atRest, List.erase_cons_head, recordFromReceipt]

/-- A new install receipt replaces an earlier one only if that one carries the version that
was removed. -/
theorem writeInstallReceipt_meets {record : PackageRecord} {predecessor : String}
    {used : List String} {last : Option String} {store : PackageStore}
    {failed : PackageControlError → PackageStore → Prop} {post : Unit → PackageStore → Prop}
    (own : record.predecessorRemovalGeneration = some predecessor)
    (reinstalled : Reinstalled platform used last store.installReceipt)
    (fresh : record.generation ∉ used) (clean : store.temporaries = [])
    (after : last.all (· == record.sourceVersion) = true →
      post () { store with installReceipt := some (installReceiptOf record predecessor) })
    (refused : last.all (· == record.sourceVersion) = false → failed .conflict store) :
    Durable.Meets (writeInstallReceipt platform record) store post failed Anywhere := by
  have absent : .installReceipt record.generation ∉ store.temporaries := by
    rw [clean]
    exact List.not_mem_nil
  have installs : last.all (· == record.sourceVersion) = true →
      Durable.Meets (writeThrough (.installReceipt record.generation) fun store =>
        { store with installReceipt := some (installReceiptOf record predecessor) }) store post
        failed Anywhere :=
    fun compatible => (meets_writeThrough absent).mpr ⟨trivial, trivial, after compatible⟩
  simp only [writeInstallReceipt, own, orConflict, Durable.meets_bind, Durable.meets_pure]
  refine (meets_readInstallReceipt reinstalled.sized).mpr ?_
  generalize found : store.installReceipt = install at reinstalled ⊢
  cases reinstalled with
  | never => exact installs rfl
  | once receipt header trusted known =>
      have valid : receipt.valid platform = true := by
        simp [InstallReceipt.valid, header.format, header.package, header.generation,
          header.predecessor, trusted.valid]
      have other : receipt.installGeneration ≠ record.generation := by
        rintro same
        exact fresh (same ▸ known)
      simp only [Durable.meets_bind, meets_ensure, valid, other, if_false, Bool.true_eq_false,
        false_implies, and_true, true_implies]
      refine ⟨fun compatible => installs ?_, fun different => refused ?_⟩
      · simpa using compatible
      · simpa using different

/-- Recovering a reinstall: it completes or is refused by the receipt of the last one. -/
theorem recoverInstall_meets {receipt : RemovalReceipt} {generation target : String}
    {used : List String} {last : Option String}
    {failed : PackageControlError → PackageStore → Prop} {post : Unit → PackageStore → Prop}
    (unsuccessful : ∀ e t, Unsuccessful env e t → failed e t)
    (header : receipt.WellFormed platform) (trusted : Trusted platform receipt.participants)
    (uuid : platform.isUuid generation = true) (validTarget : validVersion target = true)
    (reinstalled : Reinstalled platform used last install) (fresh : generation ∉ used)
    (after : last.all (· == receipt.removedVersion) = true → ∀ qs, Trusted platform qs →
      post () (atRest none (some ⟨formatVersion, packageId, generation,
        receipt.producerGeneration, target, qs⟩) []))
    (refused : last.all (· == receipt.removedVersion) = false → ∀ t, failed .conflict t) :
    Durable.Meets (run platform env (.recoverInstall target))
      ((atRest (some receipt) install [generation]).withRecord
        (recordFromReceipt generation target receipt)) post failed Anywhere := by
  have well := recordFromReceipt_wellFormed header uuid validTarget
  have own := @recordFromReceipt_trusted platform receipt generation target trusted
  have valid : (recordFromReceipt generation target receipt).validFor platform .reinstall target
      = true := by
    simp [PackageRecord.validFor, recordFromReceipt, uuid]
    exact own.valid
  simp only [run, recoverInstall, Durable.meets_bind]
  refine (meets_read (own.sized well)).mpr (Durable.meets_pure.mpr ?_)
  refine finish_meets unsuccessful rfl well own valid (.inl rfl) List.not_mem_nil ?_
  intro qs same
  have later : Trusted platform qs := own.same same
  have restoring : (PackageKind.reinstall != .remove ||
      (recordFromReceipt generation target receipt).disposition == .rollback) = true := rfl
  simp only [restoring, writeReceipt, reduceCtorEq, false_and, if_false, if_true]
  refine writeInstallReceipt_meets rfl reinstalled fresh rfl ?_ fun different => refused different _
  intro compatible
  refine ⟨List.not_mem_nil, ?_⟩
  simp only [close, if_true, Durable.meets_bind]
  refine retireController_meets rfl ?_
  have receipt_sized : Sized platform.removalReceiptBytes (some receipt) := by
    rintro _ ⟨⟩
    exact trusted.removalReceipt receipt header (.refl _)
  have receipt_valid : receipt.valid platform = true := by
    simp [RemovalReceipt.valid, header.format, header.package, header.producer, trusted.valid]
  simp only [removeExactRemovalReceipt, Durable.meets_bind]
  refine (meets_readRemovalReceipt receipt_sized).mpr ?_
  refine Durable.meets_bind.mpr
    (meets_ensure.mpr ⟨fun _ => ?_, fun wrong => by
      cases receipt_valid.symm.trans wrong⟩)
  refine Durable.meets_bind.mpr (meets_ensure.mpr ⟨fun _ => ?_, fun wrong => ?_⟩)
  · refine Durable.meets_commit.mpr ⟨trivial, clear_meets rfl rfl (well.settle _ _ qs) later ?_⟩
    have closed := after compatible qs later
    simpa [PackageStore.withRecord, atRest, PackageStore.empty, installReceiptOf,
      recordFromReceipt] using closed
  · simp [recordFromReceipt] at wrong

end Completing

/-! ## Operations between stores at rest -/

section Steps

variable {platform : Platform} {used : List String} {last : Option String} {version : String}
  {package next : Package} {store : PackageStore} {operation : Operation}

theorem Unsuccessful.impossible {env : Environment} (succeed : env.effects.Succeed) :
    ∀ e t, Unsuccessful env e t → False :=
  fun _ _ unsuccessful => unsuccessful succeed

/-- An operation that finds no receipt of another version completes. -/
theorem Operation.returns (between : Between platform used last package store)
    (follows : operation.next package = some next) (sound : operation.Sound platform)
    (fresh : operation.generation ∉ used)
    (compatible : operation.compatible package last = true) :
    Durable.Returns (operation.program platform package.version) store fun _ t =>
      Between platform (operation.generation :: used) (operation.lastReinstalled last) next t := by
  cases between with
  | installed version valid install reinstalled =>
      have later := reinstalled.more operation.generation
      cases operation with
      | remove prepare finish =>
          cases follows
          obtain ⟨uuid, discovering, prepares, finishes⟩ := sound
          refine Durable.Meets.seq ((prepareOperation_prepares (.inr rfl) uuid valid valid
            discovering).weaken (fun _ _ prepared => prepared) (Unsuccessful.impossible prepares)
            fun _ stays => stays) ?_
          rintro _ t ⟨ps, trusted, rfl⟩
          refine (finishRemove_completes uuid valid trusted).weaken ?_
            (Unsuccessful.impossible finishes) fun _ stays => stays
          rintro _ t ⟨qs, removed, rfl⟩
          exact .removed ⟨formatVersion, packageId, prepare.newV4, version, qs⟩
            ⟨rfl, rfl, uuid, valid⟩ removed List.mem_cons_self install later
      | abortRemoval prepare abort =>
          cases follows
          obtain ⟨uuid, discovering, prepares, aborts⟩ := sound
          refine Durable.Meets.seq ((prepareOperation_prepares (.inr rfl) uuid valid valid
            discovering).weaken (fun _ _ prepared => prepared) (Unsuccessful.impossible prepares)
            fun _ stays => stays) ?_
          rintro _ t ⟨ps, trusted, rfl⟩
          refine (abortRemove_completes uuid valid trusted).weaken ?_
            (Unsuccessful.impossible aborts) fun _ stays => stays
          rintro _ t rfl
          exact .installed version valid install later
      | upgrade target ends prepare finish =>
          cases follows
          obtain ⟨uuid, discovering, prepares, finishes, validTarget⟩ := sound
          refine Durable.Meets.seq ((prepareOperation_prepares (.inl rfl) uuid valid validTarget
            discovering).weaken (fun _ _ prepared => prepared) (Unsuccessful.impossible prepares)
            fun _ stays => stays) ?_
          rintro _ t ⟨ps, trusted, rfl⟩
          refine (finishUpgrade_completes ends uuid valid validTarget trusted).weaken ?_
            (Unsuccessful.impossible finishes) fun _ stays => stays
          rintro _ t rfl
          exact .installed target validTarget install later
      | bootstrapUpgrade target generation legacy ends adopt finish =>
          cases follows
          obtain ⟨uuid, discovering, adopts, finishes, validTarget, validLegacy, quiesced⟩ := sound
          have adopted := (@adoptBootstrap_prepares platform adopt version target generation legacy
            install uuid valid validTarget validLegacy quiesced discovering).weaken
            (fun _ _ prepared => prepared) (Unsuccessful.impossible adopts) fun _ stays => stays
          refine Durable.meets_bind.mpr ((Durable.meets_bind.mp adopted).weaken ?_
            (fun _ _ failed => failed) fun _ stays => stays)
          intro _ s prepared
          refine prepared.seq ?_
          rintro _ t ⟨ps, trusted, rfl⟩
          refine (finishUpgrade_completes ends uuid valid validTarget trusted).weaken ?_
            (Unsuccessful.impossible finishes) fun _ stays => stays
          rintro _ t rfl
          exact .installed target validTarget install later
      | reinstall target prepare finish => cases follows
  | removed receipt header trusted known install reinstalled =>
      have later := reinstalled.more operation.generation
      cases operation with
      | reinstall target prepare finish =>
          cases follows
          obtain ⟨uuid, prepares, finishes, validTarget⟩ := sound
          have other : prepare.newV4 ≠ receipt.producerGeneration := by
            intro same
            exact fresh (show prepare.newV4 ∈ used from same ▸ known)
          refine Durable.Meets.seq ((prepareReinstall_prepares header trusted other).weaken
            (fun _ _ prepared => prepared) (Unsuccessful.impossible prepares)
            fun _ stays => stays) ?_
          rintro _ t rfl
          refine recoverInstall_meets (Unsuccessful.impossible finishes) header trusted uuid
            validTarget reinstalled fresh ?_ ?_
          · intro _ qs settled
            exact .installed target validTarget _ (.once ⟨formatVersion, packageId, prepare.newV4,
              receipt.producerGeneration, target, qs⟩ ⟨rfl, rfl, uuid, header.producer, validTarget⟩
              settled List.mem_cons_self)
          · intro refused
            cases compatible.symm.trans refused
      | remove => cases follows
      | abortRemoval => cases follows
      | upgrade => cases follows
      | bootstrapUpgrade => cases follows

/-- A reinstall that finds a receipt of another version does not return. -/
theorem Operation.refused (between : Between platform used last package store)
    (follows : operation.next package = some next) (sound : operation.Sound platform)
    (fresh : operation.generation ∉ used)
    (incompatible : operation.compatible package last = false) :
    Durable.Ensures (operation.program platform package.version) store fun _ _ => False := by
  cases operation with
  | reinstall target prepare finish =>
      cases between with
      | installed => cases follows
      | removed receipt header trusted known install reinstalled =>
          obtain ⟨uuid, -, -, validTarget⟩ := sound
          have other : prepare.newV4 ≠ receipt.producerGeneration := by
            intro same
            exact fresh (show prepare.newV4 ∈ used from same ▸ known)
          refine Durable.Meets.seq ((prepareReinstall_prepares header trusted other).weaken
            (fun _ _ prepared => prepared) (fun _ _ _ => trivial) fun _ _ => trivial) ?_
          rintro _ t rfl
          refine recoverInstall_meets (fun _ _ _ => trivial) header trusted uuid validTarget
            reinstalled fresh ?_ fun _ _ => trivial
          intro compatible
          cases incompatible.symm.trans compatible
  | remove => cases incompatible
  | abortRemoval => cases incompatible
  | upgrade => cases incompatible
  | bootstrapUpgrade => cases incompatible

/-- From any store at rest. -/
theorem history_returns_iff {operations : List Operation}
    (between : Between platform used last package store)
    (permits : permitted package operations = true)
    (sound : ∀ operation ∈ operations, operation.Sound platform)
    (distinct : (operations.map (·.generation)).Nodup)
    (unused : ∀ operation ∈ operations, operation.generation ∉ used) :
    Durable.Returns (history platform package operations) store (fun _ _ => True) ↔
      compatible package last operations = true := by
  induction operations generalizing used last package store with
  | nil =>
      simp only [history, compatible]
      exact ⟨fun _ => trivial, fun _ => Durable.meets_pure.mpr trivial⟩
  | cons operation rest ih =>
      rw [permitted] at permits
      cases follows : operation.next package with
      | none =>
          rw [follows] at permits
          cases permits
      | some next =>
          rw [follows] at permits
          simp only [List.map_cons, List.nodup_cons] at distinct
          have own := sound operation List.mem_cons_self
          have fresh := unused operation List.mem_cons_self
          have rest_unused : ∀ other ∈ rest, other.generation ∉ operation.generation :: used := by
            intro other mem known
            rcases List.mem_cons.mp known with same | earlier
            · exact distinct.1 (List.mem_map.mpr ⟨other, mem, same⟩)
            · exact unused other (List.mem_cons_of_mem _ mem) earlier
          have after : ∀ t, Between platform (operation.generation :: used)
              (operation.lastReinstalled last) next t →
              (Durable.Returns (history platform next rest) t (fun _ _ => True) ↔
                compatible next (operation.lastReinstalled last) rest = true) :=
            fun t settled => ih settled permits
              (fun other mem => sound other (List.mem_cons_of_mem _ mem)) distinct.2 rest_unused
          simp only [history, compatible, follows, Bool.and_eq_true]
          cases matching : operation.compatible package last with
          | true =>
              have completes := Operation.returns between follows own fresh matching
              constructor
              · intro returned
                have ensured : Durable.Ensures (operation.program platform package.version) store
                    fun _ t => Between platform (operation.generation :: used)
                      (operation.lastReinstalled last) next t :=
                  completes.weaken (fun _ _ settled => settled) (fun _ _ => False.elim)
                    fun _ stays => stays
                obtain ⟨_, t, settled, continued⟩ := ensured.returns (Durable.meets_bind.mp returned)
                exact ⟨rfl, (after t settled).mp continued⟩
              · rintro ⟨-, rest_compatible⟩
                exact completes.seq fun _ t settled => (after t settled).mpr rest_compatible
          | false =>
              have refused := Operation.refused between follows own fresh matching
              constructor
              · intro returned
                obtain ⟨_, _, impossible, -⟩ := refused.returns (Durable.meets_bind.mp returned)
                exact impossible.elim
              · rintro ⟨impossible, -⟩
                cases impossible

/-- Every step of a history that dpkg can issue returns exactly when each repeated reinstall
removes the version that the last reinstall installed. -/
theorem package_history_completes_iff {operations : List Operation}
    (valid : validVersion version = true)
    (permits : permitted (.installed version) operations = true)
    (sound : ∀ operation ∈ operations, operation.Sound platform)
    (distinct : (operations.map (·.generation)).Nodup) :
    Durable.Returns (history platform (.installed version) operations) .empty (fun _ _ => True) ↔
      compatible (.installed version) none operations = true :=
  @history_returns_iff platform [] none (.installed version) .empty operations
    (.installed version valid none .never) permits sound distinct fun _ _ => List.not_mem_nil

end Steps

/-! ### Two reinstalls with an upgrade between them -/

def sampleUuid (last : String) : String :=
  "5b0c7f52-55c5-4c5e-9f1c-0a4b5d6e7f8" ++ last

def sampleRemove (last : String) : Operation :=
  .remove (sampleEnvironment (sampleUuid last)) (sampleEnvironment firstUuid)

def sampleReinstall (target last : String) : Operation :=
  .reinstall target (sampleEnvironment (sampleUuid last)) (sampleEnvironment firstUuid)

def sampleUpgrade (target last : String) : Operation :=
  .upgrade target .recoverInstall (sampleEnvironment (sampleUuid last))
    (sampleEnvironment firstUuid)

def upgradedHistory : List Operation :=
  [sampleRemove "1", sampleReinstall "0.2.0" "2", sampleUpgrade "0.3.0" "3", sampleRemove "4",
    sampleReinstall "0.3.0" "5"]

theorem upgraded_package_not_reinstallable :
    permitted (.installed "0.1.0") upgradedHistory = true ∧
      (history samplePlatform (.installed "0.1.0") upgradedHistory .empty).outcome =
        .error .conflict := by
  decide

def reinstalledHistory : List Operation :=
  [sampleRemove "1", sampleReinstall "0.2.0" "2", sampleRemove "3", sampleReinstall "0.3.0" "4"]

theorem reinstalledHistory_sound :
    ∀ operation ∈ reinstalledHistory, operation.Sound samplePlatform := by
  have removes : ∀ last, isHyphenatedUuid (sampleUuid last) = true →
      (sampleRemove last).Sound samplePlatform := fun _ uuid =>
    ⟨uuid, sampleEffects_discovering, sampleEffects_succeed, sampleEffects_succeed⟩
  have reinstalls : ∀ target last, isHyphenatedUuid (sampleUuid last) = true →
      validVersion target = true → (sampleReinstall target last).Sound samplePlatform :=
    fun _ _ uuid valid => ⟨uuid, sampleEffects_succeed, sampleEffects_succeed, valid⟩
  simp only [reinstalledHistory, List.forall_mem_cons, List.not_mem_nil, false_implies,
    implies_true, and_true]
  exact ⟨removes _ (by decide), reinstalls _ _ (by decide) (by decide), removes _ (by decide),
    reinstalls _ _ (by decide) (by decide)⟩

theorem reinstalled_package_completes :
    Durable.Returns (history samplePlatform (.installed "0.1.0") reinstalledHistory) .empty
      fun _ _ => True :=
  (package_history_completes_iff (by decide) (by decide) reinstalledHistory_sound
    (by decide)).mpr (by decide)

end DocumentSummarizer.Connect
