import DocumentSummarizer.Connect.OrderlyRuns

/-! # Purging a removed package

`purge_settled_state` accepts an exact list of files.  What a killed writer left
under another generation is not on it, and nothing removes it.
-/

namespace DocumentSummarizer.Connect

open Library

/-- Nothing of the operation is left. -/
structure Purged (store : PackageStore) : Prop where
  record : store.record = none
  removalReceipt : store.removalReceipt = none
  installReceipt : store.installReceipt = none
  controllers : store.controllers = []

/-- The intent of the removal that left the receipt. -/
def QuiesceIntent.Own (receipt : RemovalReceipt) (intent : QuiesceIntent) : Prop :=
  intent.kind = .remove ∧ intent.generation = receipt.producerGeneration ∧
    intent.sourceVersion = receipt.removedVersion ∧ intent.targetVersion = receipt.removedVersion

/-- A temporary file that the purge itself takes away. -/
def Temporary.Own (receipt : RemovalReceipt) (store : PackageStore) (temporary : Temporary) :
    Prop :=
  temporary = .record receipt.producerGeneration ∨
    temporary = .controller receipt.producerGeneration ∧
      receipt.producerGeneration ∉ store.controllers

/-- The root holds no file but the lock files, the receipts and what belongs to the removal
that left the receipt. -/
structure OnlyOwnFiles (receipt : RemovalReceipt) (store : PackageStore) : Prop where
  quarantines : store.quarantines = []
  quiesce : ∀ intent, store.quiesce = some intent → intent.Own receipt
  temporaries : ∀ temporary ∈ store.temporaries, temporary.Own receipt store
  controllers : ∀ generation ∈ store.controllers, generation = receipt.producerGeneration

/-- The record that the purge of a removed package writes. -/
def purgeRecord (receipt : RemovalReceipt) : PackageRecord :=
  { recordFromIntent ⟨receipt.producerGeneration, .purge, receipt.removedVersion,
      receipt.removedVersion, none⟩ receipt.participants with phase := .finalizing }

/-- How far a purge has come. -/
inductive PurgeStage (receipt : RemovalReceipt) (store : PackageStore) : Prop where
  | removed (record : store.record = none) (kept : store.removalReceipt = some receipt)
  | recorded (record : store.record = some (purgeRecord receipt))
      (kept : ∀ other, store.removalReceipt = some other → other = receipt)
  | cleared (record : store.record = none) (removal : store.removalReceipt = none)
      (install : store.installReceipt = none) (quiesce : store.quiesce = none)
      (temporaries : store.temporaries = [])

/-- A root that the purge of this removal finds or leaves behind. -/
structure PurgeReady (platform : Platform) (receipt : RemovalReceipt) (store : PackageStore) :
    Prop where
  own : OnlyOwnFiles receipt store
  stage : PurgeStage receipt store
  distinct : store.temporaries.Nodup
  controllers : store.controllers.Nodup
  readable : ∀ intent, store.quiesce = some intent → intent.readable platform = true
  install : ∀ receipt, store.installReceipt = some receipt → receipt.Sound platform

section Purging

variable {platform : Platform} {env : Environment} {store : PackageStore}
  {receipt : RemovalReceipt}

theorem purgeRecord_sound (sound : receipt.Sound platform) :
    (purgeRecord receipt).Sound platform where
  header := ⟨rfl, rfl, sound.header.producer, sound.header.removed, sound.header.removed, nofun⟩
  trusted := sound.trusted
  disabling := fun _ _ p mem => .inr (sound.disabled p mem)

theorem purgeRecord_validFor (sound : receipt.Sound platform) :
    (purgeRecord receipt).validFor platform .purge receipt.removedVersion = true := by
  have valid : validParticipants (purgeRecord receipt).participants = true := sound.trusted.valid
  have uuid : platform.isUuid (purgeRecord receipt).generation = true := sound.header.producer
  simp only [PackageRecord.validFor, valid, uuid]
  simp [purgeRecord, recordFromIntent]

theorem RemovalReceipt.Sound.valid (sound : receipt.Sound platform) :
    receipt.valid platform = true := by
  simp only [RemovalReceipt.valid, sound.header.format, sound.header.package,
    sound.header.producer, sound.trusted.valid, beq_self_eq_true, Bool.and_self]

theorem InstallReceipt.Sound.valid {receipt : InstallReceipt} (sound : receipt.Sound platform) :
    receipt.valid platform = true := by
  simp only [InstallReceipt.valid, sound.header.format, sound.header.package,
    sound.header.generation, sound.header.predecessor, sound.trusted.valid, beq_self_eq_true,
    Bool.and_self]

theorem RemovalReceipt.Sound.sized (sound : receipt.Sound platform) :
    Sized platform.removalReceiptBytes (some receipt) := by
  intro other same
  cases same
  exact sound.trusted.removalReceipt receipt sound.header (.refl _)

theorem InstallReceipt.Sound.sized {receipt : InstallReceipt} (sound : receipt.Sound platform) :
    Sized platform.installReceiptBytes (some receipt) := by
  intro other same
  cases same
  exact sound.trusted.installReceipt receipt sound.header (.refl _)

theorem controllers_accepted (sound : receipt.Sound platform)
    (own : ∀ generation ∈ store.controllers, generation = receipt.producerGeneration)
    (distinct : store.controllers.Nodup) {record : Option PackageRecord}
    (same : ∀ r, record = some r → r.generation = receipt.producerGeneration) :
    (store.controllers.all fun generation =>
        platform.isUuid generation && record.all (·.generation == generation)) = true ∧
      store.controllers.length ≤ 1 := by
  constructor
  · rw [List.all_eq_true]
    intro generation mem
    rw [own generation mem, sound.header.producer, Bool.true_and]
    cases record with
    | none => rfl
    | some r => simp [same r rfl]
  · cases found : store.controllers with
    | nil => simp
    | cons first rest =>
        cases rest with
        | nil => simp
        | cons second more =>
            rw [found] at own distinct
            have one := own first (by simp)
            have two := own second (by simp)
            simp [one, two] at distinct

theorem PurgeReady.without (h : PurgeReady platform receipt store) {next : PackageStore}
    (quiesce : next.quiesce = store.quiesce) (quarantines : next.quarantines = store.quarantines)
    (temporaries : next.temporaries = []) (controllers : next.controllers.Sublist store.controllers)
    (install : ∀ r, next.installReceipt = some r → store.installReceipt = some r)
    (stage : PurgeStage receipt next) : PurgeReady platform receipt next where
  own := {
    quarantines := quarantines.trans h.own.quarantines
    quiesce := quiesce ▸ h.own.quiesce
    temporaries := by simp [temporaries]
    controllers := fun generation mem => h.own.controllers generation (controllers.subset mem) }
  stage := stage
  distinct := by simp [temporaries]
  controllers := h.controllers.sublist controllers
  readable := quiesce ▸ h.readable
  install := fun r found => h.install r (install r found)

/-- The program purges: it ends with all gone, and fails only where an effect does. -/
abbrev Purges (platform : Platform) (env : Environment) (receipt : RemovalReceipt)
    (program : Program Unit) (store : PackageStore) : Prop :=
  Durable.Meets program store (fun _ u => PurgeReady platform receipt u ∧ Purged u)
    (fun _ u => PurgeReady platform receipt u ∧ ¬ env.effects.Succeed) (PurgeReady platform receipt)

/-- The controller goes last. -/
theorem purgeController_meets {base : PackageStore} (ready : PurgeReady platform receipt store)
    (same : store.controllers = base.controllers) (record : store.record = none)
    (removal : store.removalReceipt = none) (install : store.installReceipt = none)
    (quiesce : store.quiesce = none) (temporaries : store.temporaries = []) :
    Purges platform env receipt (if !base.controllers.isEmpty then
        (Durable.commit fun store => { store with controllers := [] } : Program Unit)
      else pure ()) store := by
  by_cases empty : base.controllers = []
  · simp only [empty, List.isEmpty_nil, Bool.not_true, Bool.false_eq_true, if_false]
    exact Durable.meets_pure.mpr ⟨ready, record, removal, install, same.trans empty⟩
  · have filled : (!base.controllers.isEmpty) = true := by simpa using empty
    rw [if_pos filled]
    have gone : PurgeReady platform receipt { store with controllers := [] } :=
      ready.without rfl rfl temporaries (List.nil_sublist _) (fun _ found => found)
        (.cleared record removal install quiesce temporaries)
    exact Durable.meets_commit.mpr ⟨gone, gone, record, removal, install, rfl⟩

/-- The last part of a purge, with nothing but its own files left. -/
theorem purgeSettledState_meets {record : Option PackageRecord}
    (sound : receipt.Sound platform) (ready : PurgeReady platform receipt store)
    (quiesce : store.quiesce = none) (temporaries : store.temporaries = [])
    (recorded : store.record = record)
    (stage : record = some (purgeRecord receipt) ∧
        (∀ other, store.removalReceipt = some other → other = receipt) ∨
      record = none ∧ store.removalReceipt = none ∧ store.installReceipt = none) :
    Purges platform env receipt (purgeSettledState platform env record) store := by
  have sized : Sized platform.installReceiptBytes store.installReceipt := by
    intro other found
    exact (ready.install other found).sized other rfl
  have accepted := @controllers_accepted platform store receipt sound ready.own.controllers
    ready.controllers record (by
      intro r same
      rcases stage with ⟨rfl, -⟩ | ⟨rfl, -⟩
      · cases same
        rfl
      · cases same)
  have tail : ∀ {t : PackageStore} {base : PackageStore}, PurgeReady platform receipt t →
      t.controllers = base.controllers → t.record = record → t.removalReceipt = none →
      t.installReceipt = none → t.quiesce = none → t.temporaries = [] →
      Purges platform env receipt (purgeRecordLast platform record base) t := by
    intro t base readyHere same own removal install quiet drained
    cases record with
    | none =>
        exact purgeController_meets readyHere same own removal install quiet drained
    | some record =>
        have own_record : record = purgeRecord receipt := by
          rcases stage with ⟨is_own, -⟩ | ⟨impossible, -⟩
          · exact Option.some.inj is_own
          · cases impossible
        subst own_record
        have gone : PurgeReady platform receipt { t with record := none } :=
          readyHere.without rfl rfl drained (List.Sublist.refl _) (fun _ found => found)
            (.cleared rfl removal install quiet drained)
        refine Durable.meets_bind.mpr ((meets_clear own (purgeRecord_sound sound).sized).mpr
          ⟨gone, ?_⟩)
        exact purgeController_meets gone same rfl removal install quiet drained
  -- the receipts go before the record
  have receiptsGone : ∀ {base : PackageStore}, base.controllers = store.controllers →
      base.removalReceipt = store.removalReceipt →
      base.installReceipt = store.installReceipt →
      Purges platform env receipt (purgeInstallFirst platform record base) store := by
    intro base same sameRemoval sameInstall
    have removalGone : ∀ {t : PackageStore}, PurgeReady platform receipt t →
        t.controllers = base.controllers → t.record = record →
        t.removalReceipt = base.removalReceipt → t.installReceipt = none → t.quiesce = none →
        t.temporaries = [] →
        Purges platform env receipt (purgeRemovalFirst platform record base) t := by
      intro t readyHere sameHere own removal install quiet drained
      unfold purgeRemovalFirst
      by_cases present : base.removalReceipt.isSome = true
      · rw [if_pos present]
        have gone : PurgeReady platform receipt { t with removalReceipt := none } := by
          refine readyHere.without rfl rfl drained (List.Sublist.refl _) (fun _ found => found) ?_
          rcases stage with ⟨is_own, -⟩ | ⟨-, no_removal, -⟩
          · exact .recorded (own.trans is_own) (by rintro _ ⟨⟩)
          · rw [sameRemoval, no_removal] at present
            cases present
        exact Durable.meets_bind.mpr (Durable.meets_commit.mpr
          ⟨gone, tail gone sameHere own rfl install quiet drained⟩)
      · rw [if_neg present]
        have none_left : t.removalReceipt = none := by
          rw [removal]
          simpa using present
        exact tail readyHere sameHere own none_left install quiet drained
    unfold purgeInstallFirst
    by_cases present : base.installReceipt.isSome = true
    · rw [if_pos present]
      have gone : PurgeReady platform receipt { store with installReceipt := none } := by
        refine ready.without rfl rfl temporaries (List.Sublist.refl _) (by rintro _ ⟨⟩) ?_
        rcases stage with ⟨is_own, kept⟩ | ⟨-, -, no_install⟩
        · exact .recorded (recorded.trans is_own) kept
        · rw [sameInstall, no_install] at present
          cases present
      exact Durable.meets_bind.mpr (Durable.meets_commit.mpr
        ⟨gone, removalGone gone same.symm recorded sameRemoval.symm rfl quiesce temporaries⟩)
    · rw [if_neg present]
      have none_left : store.installReceipt = none := by
        rw [← sameInstall]
        simpa using present
      exact removalGone ready same.symm recorded sameRemoval.symm none_left quiesce temporaries
  have quiet : (store.quiesce.isNone && store.quarantines.isEmpty &&
      store.temporaries.isEmpty) = true := by
    simp [quiesce, temporaries, ready.own.quarantines]
  have expected : (record.isSome || (store.removalReceipt.isNone && store.installReceipt.isNone &&
      store.record.isNone)) = true := by
    rcases stage with ⟨rfl, -⟩ | ⟨rfl, removal, install⟩
    · rfl
    · simp [removal, install, recorded]
  have looked : Purges platform env receipt (purgeLooked platform env record store) store := by
    simp only [purgeLooked, Durable.meets_bind, meets_ensure, accepted.1, accepted.2, decide_true,
      Bool.true_eq_false, false_implies, and_true, true_implies]
    apply Durable.meets_lift.mpr
    constructor
    · intro _ _
      exact receiptsGone rfl rfl rfl
    · intro e failure
      refine ⟨ready, fun succeed => ?_⟩
      rw [succeed.removeParticipantReceipts] at failure
      cases failure
  unfold purgeLooked purgeInstallFirst at looked
  unfold purgeSettledState
  refine Durable.meets_bind.mpr (Durable.meets_read.mpr ?_)
  refine Durable.meets_bind.mpr (meets_ensure.mpr ⟨fun _ => ?_, ?_⟩)
  · refine Durable.meets_bind.mpr (meets_ensure.mpr ⟨fun _ => ?_, ?_⟩)
    · refine Durable.meets_bind.mpr ((meets_readInstallReceipt sized).mpr ?_)
      cases found : store.installReceipt with
      | none =>
          rw [found] at looked
          exact looked
      | some install =>
          rw [found] at looked
          have valid := (ready.install install found).valid
          refine Durable.meets_bind.mpr (meets_ensure.mpr ⟨fun _ => looked, ?_⟩)
          intro invalid
          rw [valid] at invalid
          cases invalid
    · intro unexpected
      rw [expected] at unexpected
      cases unexpected
  · intro loud
    rw [quiet] at loud
    cases loud

/-! ## One attempt -/

/-- Of the two stages before anything is gone. -/
def PurgeStage.Early (receipt : RemovalReceipt) (store : PackageStore) : Prop :=
  (store.record = none ∧ store.removalReceipt = some receipt) ∨
    store.record = some (purgeRecord receipt) ∧
      ∀ other, store.removalReceipt = some other → other = receipt

theorem PurgeStage.Early.stage (h : PurgeStage.Early receipt store) :
    PurgeStage receipt store := by
  rcases h with ⟨record, kept⟩ | ⟨record, kept⟩
  · exact .removed record kept
  · exact .recorded record kept

section

variable (h : PurgeReady platform receipt store)

include h

section

variable (early : PurgeStage.Early receipt store)

include early

theorem PurgeReady.withTemporaries
    {temporaries : List Temporary}
    (own : ∀ temporary ∈ temporaries, temporary.Own receipt store)
    (distinct : temporaries.Nodup) :
    PurgeReady platform receipt { store with temporaries := temporaries } where
  own := { h.own with temporaries := own }
  stage := PurgeStage.Early.stage early
  distinct := distinct
  controllers := h.controllers
  readable := h.readable
  install := h.install

theorem PurgeReady.dropDraft
    (temporary : Temporary) :
    PurgeReady platform receipt (store.dropDraft temporary) :=
  h.withTemporaries early
    (fun other mem => h.own.temporaries other (List.mem_of_mem_erase mem))
    (h.distinct.erase temporary)

theorem PurgeReady.draft
    {temporary : Temporary}
    (own : temporary.Own receipt store) (absent : temporary ∉ store.temporaries) :
    PurgeReady platform receipt (store.draft temporary) := by
  apply h.withTemporaries early
  · exact List.forall_mem_cons.mpr ⟨own, h.own.temporaries⟩
  · exact List.nodup_cons.mpr ⟨absent, h.distinct⟩

theorem PurgeReady.recorded
    :
    PurgeReady platform receipt (store.withRecord (purgeRecord receipt)) where
  own := ⟨h.own.quarantines, h.own.quiesce, h.own.temporaries, h.own.controllers⟩
  stage := by
    apply PurgeStage.recorded rfl
    rcases early with ⟨-, kept⟩ | ⟨-, kept⟩
    · intro other found
      exact (Option.some.inj (kept.symm.trans found)).symm
    · exact kept
  distinct := h.distinct
  controllers := h.controllers
  readable := h.readable
  install := h.install

theorem PurgeReady.quiet
    :
    PurgeReady platform receipt { store with quiesce := none } where
  own := ⟨h.own.quarantines, nofun, h.own.temporaries, h.own.controllers⟩
  stage := PurgeStage.Early.stage early
  distinct := h.distinct
  controllers := h.controllers
  readable := nofun
  install := h.install

end

theorem PurgeReady.receipt_eq :
    ∀ other, store.removalReceipt = some other → other = receipt := by
  cases h.stage with
  | removed _ kept =>
      intro other found
      exact (Option.some.inj (kept.symm.trans found)).symm
  | recorded _ kept => exact kept
  | cleared _ none =>
      intro other found
      rw [none] at found
      cases found

/-- Without a leftover record only the controller's own temporary can be there. -/
theorem PurgeReady.controllerDraft
    (absent : .record receipt.producerGeneration ∉ store.temporaries) :
    ∀ temporary ∈ store.temporaries, temporary = .controller receipt.producerGeneration ∧
      receipt.producerGeneration ∉ store.controllers := by
  intro temporary mem
  rcases h.own.temporaries temporary mem with rfl | own
  · exact absurd mem absent
  · exact own

theorem PurgeReady.installController
    (early : PurgeStage.Early receipt store)
    (absent : receipt.producerGeneration ∉ store.controllers) :
    PurgeReady platform receipt { store with
      temporaries := []
      controllers := receipt.producerGeneration :: store.controllers } where
  own := {
    quarantines := h.own.quarantines
    quiesce := h.own.quiesce
    temporaries := nofun
    controllers := List.forall_mem_cons.mpr ⟨rfl, h.own.controllers⟩ }
  stage := PurgeStage.Early.stage early
  distinct := List.nodup_nil
  controllers := List.nodup_cons.mpr ⟨absent, h.controllers⟩
  readable := h.readable
  install := h.install

end

/-- The controller of a purge replaces its own leftover. -/
theorem prepareController_purges (ready : PurgeReady platform receipt store)
    (recorded : store.record = some (purgeRecord receipt))
    (absent : .record receipt.producerGeneration ∉ store.temporaries) :
    Durable.Meets (prepareController env (purgeRecord receipt)) store
      (fun _ t => PurgeReady platform receipt t ∧ t.temporaries = [] ∧
        t.record = some (purgeRecord receipt) ∧ t.quiesce = store.quiesce)
      (fun _ t => PurgeReady platform receipt t ∧ ¬ env.effects.Succeed)
      (PurgeReady platform receipt) := by
  have left := ready.controllerDraft absent
  have early : PurgeStage.Early receipt store := .inr ⟨recorded, ready.receipt_eq⟩
  unfold prepareController
  apply Durable.meets_bind.mpr
  apply Durable.meets_read.mpr
  by_cases present : (purgeRecord receipt).generation ∈ store.controllers
  · rw [if_pos present]
    refine Durable.meets_pure.mpr ⟨ready, ?_, recorded, rfl⟩
    apply List.eq_nil_iff_forall_not_mem.mpr
    intro temporary mem
    exact (left temporary mem).2 present
  · rw [if_neg present]
    -- no temporary is left once the controller's own is dropped
    have drained : store.temporaries.erase (.controller receipt.producerGeneration) = [] := by
      apply List.eq_nil_iff_forall_not_mem.mpr
      intro temporary mem
      have other := (left temporary (List.mem_of_mem_erase mem)).1
      rw [other] at mem
      exact (List.Nodup.not_mem_erase ready.distinct) mem
    have copies : ∀ {t : PackageStore}, t = { store with temporaries := [] } →
        Durable.Meets (do
          Durable.commit (·.draft (.controller receipt.producerGeneration))
          Durable.lift (env.effects.copyController (purgeRecord receipt))
          Durable.commit fun store =>
            let store := store.dropDraft (.controller receipt.producerGeneration)
            { store with controllers := receipt.producerGeneration :: store.controllers }) t
          (fun _ t => PurgeReady platform receipt t ∧ t.temporaries = [] ∧
            t.record = some (purgeRecord receipt) ∧ t.quiesce = store.quiesce)
          (fun _ t => PurgeReady platform receipt t ∧ ¬ env.effects.Succeed)
          (PurgeReady platform receipt) := by
      rintro t rfl
      have drafted : PurgeReady platform receipt
          (PackageStore.draft { store with temporaries := [] }
            (.controller receipt.producerGeneration)) :=
        ready.withTemporaries early
          (List.forall_mem_singleton.mpr (.inr ⟨rfl, present⟩)) (by simp)
      refine Durable.meets_bind.mpr (Durable.meets_commit.mpr ⟨drafted, ?_⟩)
      apply Durable.meets_bind.mpr
      apply Durable.meets_lift.mpr
      constructor
      · intro _ _
        have installed := ready.installController early present
        simp only [Durable.meets_commit, PackageStore.dropDraft_draft]
        exact ⟨installed, installed, trivial, recorded, trivial⟩
      · intro e failure
        refine ⟨drafted, fun succeed => ?_⟩
        rw [succeed.copyController] at failure
        cases failure
    by_cases leftover : .controller (purgeRecord receipt).generation ∈ store.temporaries
    · rw [if_pos leftover]
      refine Durable.meets_bind.mpr (Durable.meets_commit.mpr
        ⟨ready.dropDraft early _, copies ?_⟩)
      simp only [PackageStore.dropDraft, purgeRecord, recordFromIntent, drained]
    · rw [if_neg leftover]
      apply copies
      have none_left : store.temporaries = [] := by
        apply List.eq_nil_iff_forall_not_mem.mpr
        intro temporary mem
        rw [(left temporary mem).1] at mem
        exact leftover mem
      rw [← none_left]

theorem prepareFromIntent_purges (sound : receipt.Sound platform)
    (ready : PurgeReady platform receipt store)
    (recorded : store.record = some (purgeRecord receipt))
    (absent : .record receipt.producerGeneration ∉ store.temporaries) :
    Durable.Meets (prepareFromIntent platform env
        ⟨receipt.producerGeneration, .purge, receipt.removedVersion, receipt.removedVersion,
          none⟩) store
      (fun _ t => PurgeReady platform receipt t ∧ t.temporaries = [] ∧
        t.record = some (purgeRecord receipt) ∧ t.quiesce = store.quiesce)
      (fun _ u => PurgeReady platform receipt u ∧ ¬ env.effects.Succeed)
      (PurgeReady platform receipt) := by
  have valid := purgeRecord_validFor sound
  have matching : ((purgeRecord receipt).generation == receipt.producerGeneration &&
      (purgeRecord receipt).sourceVersion == receipt.removedVersion) = true := by
    simp [purgeRecord, recordFromIntent]
  have forward : ((purgeRecord receipt).disposition == .forward) = true := rfl
  unfold prepareFromIntent
  refine Durable.meets_bind.mpr ((meets_read (recorded ▸ (purgeRecord_sound sound).sized)).mpr ?_)
  rw [recorded]
  simp only [Durable.meets_bind, meets_ensure, valid, forward, matching, Durable.meets_pure,
    Bool.true_eq_false, false_implies, and_true, true_implies, Option.isNone_some,
    Bool.false_eq_true, if_false]
  apply Durable.meets_lift.mpr
  constructor
  · intro _ _
    unfold continuePreparation
    have finalized : ¬ (purgeRecord receipt).phase = .intentRecorded := by rintro ⟨⟩
    rw [if_neg finalized]
    apply (prepareController_purges ready recorded absent).seq
    intro _ t held
    exact Durable.meets_pure.mpr held
  · intro e failure
    refine ⟨ready, fun succeed => ?_⟩
    rw [succeed.lockParticipantAuthorities] at failure
    cases failure

theorem recordedPurge_meets (sound : receipt.Sound platform)
    (ready : PurgeReady platform receipt store)
    (recorded : store.record = some (purgeRecord receipt))
    (absent : .record receipt.producerGeneration ∉ store.temporaries) :
    Purges platform env receipt (do
        prepareFromIntent platform env
          ⟨receipt.producerGeneration, .purge, receipt.removedVersion, receipt.removedVersion,
            none⟩
        match store.quiesce with
        | some intent => platform.clearQuiesce intent.generation
        | none => pure ()
        finishRecordedPurge platform env) store := by
  have sized := (purgeRecord_sound sound).sized
  have disabled : (purgeRecord receipt).participants.all (·.settlement == .disabled) = true := by
    apply List.all_eq_true.mpr
    intro p mem
    exact beq_iff_eq.mpr (sound.disabled p mem)
  -- from the moment that the quiesce record is gone
  have ending : ∀ {t : PackageStore}, PurgeReady platform receipt t → t.temporaries = [] →
      t.record = some (purgeRecord receipt) → t.quiesce = none →
      Purges platform env receipt (finishRecordedPurge platform env) t := by
    intro t here drained found quiet
    unfold finishRecordedPurge
    refine Durable.meets_bind.mpr ((meets_read (found ▸ sized)).mpr ?_)
    rw [found]
    refine Durable.meets_bind.mpr (Durable.meets_pure.mpr ?_)
    apply Durable.meets_bind.mpr
    apply Durable.meets_lift.mpr
    constructor
    · intro _ _
      have phase : ¬ (purgeRecord receipt).phase ≠ .finalizing := fun other => other rfl
      rw [if_neg phase]
      refine Durable.meets_bind.mpr (Durable.meets_pure.mpr ?_)
      refine Durable.meets_bind.mpr (meets_ensure.mpr ⟨fun _ => ?_, ?_⟩)
      · exact purgeSettledState_meets sound here quiet drained found
          (.inl ⟨rfl, here.receipt_eq⟩)
      · intro mixed
        rw [disabled] at mixed
        cases mixed
    · intro e failure
      refine ⟨here, fun succeed => ?_⟩
      rw [succeed.lockParticipantAuthorities] at failure
      cases failure
  apply (prepareFromIntent_purges sound ready recorded absent).seq
  rintro _ t ⟨here, drained, found, same⟩
  cases quiesce : store.quiesce with
  | none => exact ending here drained found (same.trans quiesce)
  | some intent =>
      have there := same.trans quiesce
      have silent := here.quiet (.inr ⟨found, here.receipt_eq⟩)
      refine Durable.meets_bind.mpr ((meets_clearQuiesce there
        (here.readable intent there)).mpr ⟨silent, ?_⟩)
      exact ending silent drained found rfl

theorem purgedRecord_meets (sound : receipt.Sound platform)
    (ready : PurgeReady platform receipt store) {failed : PackageControlError → PackageStore → Prop}
    {stopped : PackageStore → Prop} {post : Option PackageRecord → PackageStore → Prop}
    (early : PurgeStage.Early receipt store → ∀ kind,
      post (some { purgeRecord receipt with kind := kind }) store)
    (late : store.record = none → store.removalReceipt = none → store.installReceipt = none →
      store.quiesce = none → store.temporaries = [] → post none store) :
    Durable.Meets
      (purgedRecord platform env receipt.removedVersion store.quiesce store.removalReceipt) store
      post failed stopped := by
  unfold purgedRecord
  cases ready.stage with
  | removed record kept =>
      refine Durable.meets_bind.mpr ((meets_read (record ▸ nofun)).mpr ?_)
      rw [record, kept]
      refine Durable.meets_bind.mpr (Durable.meets_pure.mpr ?_)
      have taken := early (.inl ⟨record, kept⟩) .remove
      cases quiesce : store.quiesce with
      | none => exact Durable.meets_pure.mpr taken
      | some intent =>
          obtain ⟨-, generation, source, -⟩ := ready.own.quiesce intent quiesce
          simp only [Option.map_some, Durable.meets_bind, meets_ensure]
          refine ⟨fun _ => Durable.meets_pure.mpr taken, ?_⟩
          simp [recordFromIntent, generation, source]
  | recorded record kept =>
      refine Durable.meets_bind.mpr
        ((meets_read (record ▸ (purgeRecord_sound sound).sized)).mpr ?_)
      rw [record]
      have valid := purgeRecord_validFor sound
      have linked : (store.removalReceipt.all fun other =>
          other.producerGeneration == (purgeRecord receipt).generation &&
            other.participants == (purgeRecord receipt).participants) = true := by
        cases found : store.removalReceipt with
        | none => rfl
        | some other =>
            rw [kept other found]
            simp [purgeRecord, recordFromIntent]
      have forward : ((purgeRecord receipt).disposition == .forward &&
          ((purgeRecord receipt).kind == .remove || (purgeRecord receipt).kind == .purge))
            = true := rfl
      have taken := early (.inr ⟨record, kept⟩) .purge
      have same : (purgeRecord receipt).validFor platform (purgeRecord receipt).kind
          receipt.removedVersion = true := valid
      simp only [Durable.meets_bind, meets_ensure, forward, same, linked, Durable.meets_pure,
        Bool.true_eq_false, false_implies, and_true, true_implies]
      cases quiesce : store.quiesce with
      | none => exact Durable.meets_pure.mpr taken
      | some intent =>
          obtain ⟨-, generation, source, -⟩ := ready.own.quiesce intent quiesce
          simp only [Durable.meets_bind, meets_ensure]
          refine ⟨fun _ => Durable.meets_pure.mpr taken, ?_⟩
          simp [purgeRecord, recordFromIntent, generation, source]
  | cleared record removal install quiesce temporaries =>
      refine Durable.meets_bind.mpr ((meets_read (record ▸ nofun)).mpr ?_)
      rw [record, removal, quiesce]
      refine Durable.meets_bind.mpr (Durable.meets_pure.mpr ?_)
      exact Durable.meets_pure.mpr (late record removal install quiesce temporaries)

/-- One attempt at the purge of a ready root completes it or leaves it ready, and with effects
that succeed a failure has removed a leftover. -/
theorem finishPurge_progress (sound : receipt.Sound platform)
    (ready : PurgeReady platform receipt store) :
    Durable.Meets (finishPurge platform env receipt.removedVersion) store
      (fun _ u => PurgeReady platform receipt u ∧ Purged u)
      (fun _ u => PurgeReady platform receipt u ∧
        (env.effects.Succeed → u.temporaries.length < store.temporaries.length))
      (PurgeReady platform receipt) := by
  have own : (store.quiesce.all fun intent =>
      intent.kind == .remove && intent.targetVersion == receipt.removedVersion) = true := by
    cases found : store.quiesce with
    | none => rfl
    | some intent =>
        obtain ⟨kind, -, -, target⟩ := ready.own.quiesce intent found
        simp [kind, target]
  have settled : (store.removalReceipt.all fun other => other.valid platform &&
      other.removedVersion == receipt.removedVersion &&
      other.participants.all (·.settlement == .disabled)) = true := by
    cases found : store.removalReceipt with
    | none => rfl
    | some other =>
        rw [ready.receipt_eq other found]
        have disabled := sound.disabled
        simpa [sound.valid] using disabled
  have sized : Sized platform.removalReceiptBytes store.removalReceipt := by
    intro other found
    rw [ready.receipt_eq other found]
    exact sound.sized receipt rfl
  -- a failed effect says that not every effect succeeds
  have lenient : ∀ {u : PackageStore}, PurgeReady platform receipt u ∧ ¬ env.effects.Succeed →
      PurgeReady platform receipt u ∧
        (env.effects.Succeed → u.temporaries.length < store.temporaries.length) :=
    fun held => ⟨held.1, fun succeed => absurd succeed held.2⟩
  unfold finishPurge
  refine Durable.meets_bind.mpr (meets_ensure.mpr ⟨fun _ => ?_, ?_⟩)
  · refine Durable.meets_bind.mpr ((meets_readQuiesce ready.readable).mpr ?_)
    refine Durable.meets_bind.mpr (meets_ensure.mpr ⟨fun _ => ?_, ?_⟩)
    · refine Durable.meets_bind.mpr ((meets_readRemovalReceipt sized).mpr ?_)
      refine Durable.meets_bind.mpr (meets_ensure.mpr ⟨fun _ => ?_, ?_⟩)
      · refine Durable.meets_bind.mpr (purgedRecord_meets sound ready ?_ ?_)
        · intro early kind
          by_cases left : .record receipt.producerGeneration ∈ store.temporaries
          · have dropped := ready.dropDraft early (.record receipt.producerGeneration)
            refine Durable.meets_bind.mpr ((writeThrough_refused left).mpr
              ⟨dropped, dropped, fun _ => ?_⟩)
            rw [PackageStore.dropDraft, List.length_erase_of_mem left]
            exact Nat.sub_one_lt_of_lt (List.length_pos_of_mem left)
          · have drafted := ready.draft early (.inl rfl) left
            have written := ready.recorded early
            refine Durable.meets_bind.mpr ((meets_write left).mpr ⟨drafted, written, ?_⟩)
            refine (@recordedPurge_meets platform env (store.withRecord (purgeRecord receipt))
              receipt sound written rfl left).weaken (fun _ _ held => held)
              (fun _ _ held => lenient held) fun _ held => held
        · intro record removal install quiesce temporaries
          refine (purgeSettledState_meets sound ready quiesce temporaries record
            (.inr ⟨rfl, removal, install⟩)).weaken (fun _ _ held => held)
            (fun _ _ held => lenient held) fun _ held => held
      · intro unsettled
        rw [settled] at unsettled
        cases unsettled
    · intro foreign
      rw [own] at foreign
      cases foreign
  · intro invalid
    rw [sound.header.removed] at invalid
    cases invalid

end Purging

end DocumentSummarizer.Connect
