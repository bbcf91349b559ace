import DocumentSummarizer.Connect.Purge

/-! # Purging after any history

A file that does not belong to the removal stays for ever, and with it every
purge is refused.  Without one, each attempt that fails takes a leftover away.
-/

namespace DocumentSummarizer.Connect

open Library

/-- A file that no purge of this generation takes away. -/
inductive ForeignFile (generation : String) (store : PackageStore) : Prop where
  | quarantined (found : store.quarantines ≠ [])
  | temporary (left : Temporary) (mem : left ∈ store.temporaries)
      (record : left ≠ .record generation) (controller : left ≠ .controller generation)
  | controllerTemporary (mem : .controller generation ∈ store.temporaries)
      (installed : generation ∈ store.controllers)
  | controller (other : String) (mem : other ∈ store.controllers) (foreign : other ≠ generation)

/-- The removal has finished, or its purge has begun, beside a foreign file. -/
structure Littered (receipt : RemovalReceipt) (store : PackageStore) : Prop where
  foreign : ForeignFile receipt.producerGeneration store
  kept : store.removalReceipt = some receipt
  record : ∀ record, store.record = some record →
    record.generation = receipt.producerGeneration

/-- The removal has finished beside the intent of another operation. -/
structure Misintended (receipt : RemovalReceipt) (store : PackageStore) : Prop where
  record : store.record = none
  kept : store.removalReceipt = some receipt
  foreign : ∃ intent, store.quiesce = some intent ∧ ¬ intent.Own receipt

/-- What stands in the way of every purge. -/
inductive PurgeBlocked (receipt : RemovalReceipt) (store : PackageStore) : Prop where
  | misintended (h : Misintended receipt store)
  | littered (h : Littered receipt store)

section Blocked

variable {platform : Platform} {env : Environment} {store : PackageStore}
  {receipt : RemovalReceipt}

/-- A foreign file stays when nothing but own files goes. -/
theorem ForeignFile.carry {generation : String} {next : PackageStore}
    (h : ForeignFile generation store) (quarantines : next.quarantines = store.quarantines)
    (temporaries : ∀ left ∈ store.temporaries, left ≠ .record generation →
      (left = .controller generation → generation ∈ store.controllers) → left ∈ next.temporaries)
    (controllers : ∀ other ∈ store.controllers, other ∈ next.controllers) :
    ForeignFile generation next := by
  cases h with
  | quarantined found => exact .quarantined (quarantines ▸ found)
  | temporary left mem record controller =>
      exact .temporary left (temporaries left mem record fun same => absurd same controller)
        record controller
  | controllerTemporary mem installed =>
      exact .controllerTemporary (temporaries _ mem nofun fun _ => installed)
        (controllers _ installed)
  | controller other mem foreign => exact .controller other (controllers other mem) foreign

namespace Littered

section

variable (h : Littered receipt store)

include h

theorem withRecord {record : PackageRecord}
    (own : record.generation = receipt.producerGeneration) :
    Littered receipt (store.withRecord record) where
  foreign := h.foreign.carry rfl (fun _ mem _ _ => mem) fun _ mem => mem
  kept := h.kept
  record := by
    intro other same
    cases same
    exact own

theorem clearQuiesce :
    Littered receipt { store with quiesce := none } where
  foreign := h.foreign.carry rfl (fun _ mem _ _ => mem) fun _ mem => mem
  kept := h.kept
  record := h.record

theorem draft (temporary : Temporary) :
    Littered receipt (store.draft temporary) where
  foreign := h.foreign.carry rfl (fun _ mem _ _ => List.mem_cons_of_mem _ mem) fun _ mem => mem
  kept := h.kept
  record := h.record

theorem dropRecord :
    Littered receipt (store.dropDraft (.record receipt.producerGeneration)) where
  foreign := h.foreign.carry rfl
    (fun _ mem record _ => (List.mem_erase_of_ne record).mpr mem) fun _ mem => mem
  kept := h.kept
  record := h.record

theorem dropController
    (absent : receipt.producerGeneration ∉ store.controllers) :
    Littered receipt (store.dropDraft (.controller receipt.producerGeneration)) where
  foreign := by
    refine h.foreign.carry rfl ?_ fun _ mem => mem
    intro left mem _ own
    have other : left ≠ .controller receipt.producerGeneration := fun same => absent (own same)
    exact (List.mem_erase_of_ne other).mpr mem
  kept := h.kept
  record := h.record

theorem installController :
    Littered receipt
      { store with controllers := receipt.producerGeneration :: store.controllers } where
  foreign := h.foreign.carry rfl (fun _ mem _ _ => mem) fun _ mem => List.mem_cons_of_mem _ mem
  kept := h.kept
  record := h.record

end

end Littered

/-! ## No purge gets past a foreign file -/

variable {record : PackageRecord}

section

variable (h : Littered receipt store)

include h

theorem keeps_litteredWrite
    (own : record.generation = receipt.producerGeneration) :
    Durable.Keeps (Littered receipt) record.write store fun _ => True := by
  by_cases left : .record record.generation ∈ store.temporaries
  · have dropped : Littered receipt (store.dropDraft (.record record.generation)) :=
      own ▸ h.dropRecord
    exact (writeThrough_refused left).mpr ⟨dropped, dropped⟩
  · exact (meets_write left).mpr ⟨h.draft _, h.withRecord own, h.withRecord own, trivial⟩

theorem keeps_litteredRead :
    Durable.Keeps (Littered receipt) platform.read store fun found =>
      ∀ record, found = some record → record.generation = receipt.producerGeneration := by
  unfold Platform.read
  apply Durable.keeps_read_bind
  apply (keeps_readSized h).weaken
  intro found same record stored
  exact h.record record (same ▸ stored)

theorem keeps_litteredClearQuiesce {generation : String} :
    Durable.Keeps (Littered receipt) (platform.clearQuiesce generation) store fun _ => True := by
  unfold Platform.clearQuiesce Platform.readQuiesce
  have cleared : ∀ {t : PackageStore} {found : Option QuiesceIntent}, Littered receipt t →
      Durable.Keeps (Littered receipt) (do
        let current ← orConflict found
        ensure (current.generation == generation)
        Durable.commit fun store => { store with quiesce := none }) t fun _ => True := by
    intro t found held
    apply (keeps_orConflict held).bind
    intro current u kept _
    apply (keeps_ensure kept).bind
    intro _ v whole _
    exact Durable.keeps_commit whole.clearQuiesce trivial
  have read : Durable.Keeps (Littered receipt) platform.readQuiesce store fun _ => True := by
    unfold Platform.readQuiesce
    apply Durable.keeps_read_bind
    cases store.quiesce with
    | none => exact Durable.keeps_pure h trivial
    | some intent =>
        apply (keeps_ensure h).bind
        intro _ t held _
        exact Durable.keeps_pure held trivial
  apply read.bind
  intro found t held _
  exact cleared held

theorem keeps_litteredController
    (own : record.generation = receipt.producerGeneration) :
    Durable.Keeps (Littered receipt) (prepareController env record) store fun _ => True := by
  unfold prepareController
  apply Durable.keeps_read_bind
  rw [own]
  by_cases present : receipt.producerGeneration ∈ store.controllers
  · rw [if_pos present]
    exact Durable.keeps_pure h trivial
  · rw [if_neg present]
    have copies : ∀ {t : PackageStore}, Littered receipt t →
        Durable.Keeps (Littered receipt) (do
          Durable.commit (·.draft (.controller receipt.producerGeneration))
          Durable.lift (env.effects.copyController record)
          Durable.commit fun store =>
            let store := store.dropDraft (.controller receipt.producerGeneration)
            { store with controllers := receipt.producerGeneration :: store.controllers }) t
          fun _ => True := by
      intro t held
      apply Durable.keeps_commit_bind (held.draft _)
      refine Durable.meets_bind.mpr (Durable.meets_lift.mpr
        ⟨fun _ _ => ?_, fun _ _ => held.draft _⟩)
      apply Durable.keeps_commit
      · rw [PackageStore.dropDraft_draft]
        exact held.installController
      · exact trivial
    by_cases leftover : .controller receipt.producerGeneration ∈ store.temporaries
    · rw [if_pos leftover]
      exact Durable.keeps_commit_bind (h.dropController present)
        (copies (h.dropController present))
    · rw [if_neg leftover]
      exact copies h

theorem keeps_litteredStopPublishers {done rest : List Participant}
    (own : record.generation = receipt.producerGeneration) :
    Durable.Keeps (Littered receipt) (stopPublishers env record done rest) store
      fun _ => True := by
  induction rest generalizing done store with
  | nil => exact Durable.keeps_pure h trivial
  | cons participant rest ih =>
      have refreshed : Durable.Keeps (Littered receipt)
          (refreshRuntime env record done participant rest) store fun _ => True := by
        unfold refreshRuntime
        split
        · apply (keeps_effect h).bind
          intro identity t held _
          cases identity with
          | none => exact Durable.keeps_pure held trivial
          | some identity =>
              have writes : ∀ ps, Durable.Keeps (Littered receipt)
                  (PackageRecord.write { record with participants := ps }) t fun _ => True :=
                fun ps => keeps_litteredWrite held own
              apply (writes _).bind
              intro _ u kept _
              exact Durable.keeps_pure kept trivial
        · exact Durable.keeps_pure h trivial
      rw [stopPublishers]
      apply refreshed.bind
      intro q t held _
      apply (keeps_effect held).bind
      intro _ u kept _
      apply (keeps_effect kept).bind
      intro _ v whole _
      apply (keeps_effect whole).bind
      intro _ w intact _
      exact ih intact

theorem keeps_litteredPreparation {intent : QuiesceIntent}
    (own : intent.generation = receipt.producerGeneration) :
    Durable.Keeps (Littered receipt) (prepareFromIntent platform env intent) store
      fun _ => True := by
  have continues : ∀ {t : PackageStore} {record : PackageRecord}, Littered receipt t →
      record.generation = receipt.producerGeneration →
      Durable.Keeps (Littered receipt) (continuePreparation env record) t fun _ => True := by
    intro t record held same
    unfold continuePreparation
    apply (keeps_litteredController held same).bind
    intro _ u kept _
    split
    · apply (keeps_litteredStopPublishers kept same).bind
      intro participants v whole _
      exact keeps_litteredWrite whole same
    · exact Durable.keeps_pure kept trivial
  unfold prepareFromIntent
  apply (keeps_litteredRead h).bind
  intro found t held stored
  cases found with
  | none =>
      apply (keeps_effect held).bind
      intro participants u kept _
      have fresh : Durable.Keeps (Littered receipt)
          (pure (recordFromIntent intent participants) : Program PackageRecord) u
          fun record => record.generation = receipt.producerGeneration :=
        Durable.keeps_pure kept own
      apply fresh.bind
      intro record v whole same
      apply (keeps_effect whole).bind
      intro _ w intact _
      apply (keeps_litteredWrite intact same).bind
      intro _ x written _
      exact continues written same
  | some record =>
      apply (keeps_ensure held).bind
      intro _ u kept _
      apply (keeps_ensure kept).bind
      intro _ v whole _
      apply (keeps_ensure whole).bind
      intro _ w intact _
      have found : Durable.Keeps (Littered receipt) (pure record : Program PackageRecord) w
          fun record => record.generation = receipt.producerGeneration :=
        Durable.keeps_pure intact (stored record rfl)
      apply found.bind
      intro record x settled same
      apply (keeps_effect settled).bind
      intro _ y locked _
      exact continues locked same

theorem purgeSettledState_refuses
    (own : record.generation = receipt.producerGeneration) :
    Durable.Keeps (Littered receipt) (purgeSettledState platform env (some record)) store
      fun _ => False := by
  have readInstall : ∀ {t : PackageStore}, Littered receipt t →
      Durable.Keeps (Littered receipt) platform.readInstallReceipt t fun _ => True := by
    intro t held
    unfold Platform.readInstallReceipt
    apply Durable.keeps_read_bind
    exact (keeps_readSized held).weaken fun _ _ => trivial
  have refused : ∀ {t : PackageStore} {k : Unit → Program Unit}, Littered receipt t →
      store.quarantines = [] → store.temporaries = [] →
      Durable.Keeps (Littered receipt) (ensure (store.controllers.all fun generation =>
        platform.isUuid generation && (some record).all (·.generation == generation)) >>= k) t
        fun _ => False := by
    intro t k held quarantines temporaries
    apply (keeps_ensure held).bind
    intro _ u kept accepted
    cases h.foreign with
    | quarantined found => exact absurd quarantines found
    | temporary left mem => simp [temporaries] at mem
    | controllerTemporary mem => simp [temporaries] at mem
    | controller other mem foreign =>
        have same := List.all_eq_true.mp accepted other mem
        simp only [Option.all_some, Bool.and_eq_true, beq_iff_eq] at same
        exact absurd (same.2.symm.trans own) foreign
  unfold purgeSettledState
  apply Durable.keeps_read_bind
  apply (keeps_ensure h).bind
  intro _ t held quiet
  simp only [Bool.and_eq_true, List.isEmpty_iff] at quiet
  apply (keeps_ensure held).bind
  intro _ u kept _
  apply (readInstall kept).bind
  intro found v whole _
  cases found with
  | none => exact refused whole quiet.1.2 quiet.2
  | some install =>
      apply (keeps_ensure whole).bind
      intro _ w intact _
      exact refused intact quiet.1.2 quiet.2

theorem keeps_litteredPurgedRecord {target : String} {intent : Option QuiesceIntent}
    :
    Durable.Keeps (Littered receipt) (purgedRecord platform env target intent (some receipt)) store
      fun found => ∃ record : PackageRecord, found = some record ∧
        record.generation = receipt.producerGeneration := by
  have combined : ∀ {t : PackageStore} {record : PackageRecord}, Littered receipt t →
      record.generation = receipt.producerGeneration →
      Durable.Keeps (Littered receipt) (combinedRecord env (some record) intent) t
        fun found => ∃ record : PackageRecord, found = some record ∧
          record.generation = receipt.producerGeneration := by
    intro t record held own
    cases intent with
    | none => exact Durable.keeps_pure held ⟨record, rfl, own⟩
    | some intent =>
        apply (keeps_ensure held).bind
        intro _ u kept _
        exact Durable.keeps_pure kept ⟨record, rfl, own⟩
  unfold purgedRecord
  apply (keeps_litteredRead h).bind
  intro found t held stored
  cases found with
  | none => exact combined held rfl
  | some record =>
      apply (keeps_ensure held).bind
      intro _ u kept _
      apply (keeps_ensure kept).bind
      intro _ v whole _
      apply (keeps_ensure whole).bind
      intro _ w intact _
      exact combined intact (stored record rfl)

end

theorem keeps_receipt {inv : PackageStore → Prop} (h : inv store) :
    Durable.Keeps inv platform.readRemovalReceipt store
      fun found => found = store.removalReceipt := by
  unfold Platform.readRemovalReceipt
  apply Durable.keeps_read_bind
  exact keeps_readSized h

theorem keeps_intent {inv : PackageStore → Prop} (h : inv store) :
    Durable.Keeps inv platform.readQuiesce store fun found => found = store.quiesce := by
  unfold Platform.readQuiesce
  apply Durable.keeps_read_bind
  cases store.quiesce with
  | none => exact Durable.keeps_pure h rfl
  | some intent =>
      apply (keeps_ensure h).bind
      intro _ t held _
      exact Durable.keeps_pure held rfl

/-- A purge never returns beside a foreign file. -/
theorem finishPurge_littered {target : String} (h : Littered receipt store) :
    Durable.Keeps (Littered receipt) (finishPurge platform env target) store
      fun _ => False := by
  have ending : ∀ {t : PackageStore}, Littered receipt t →
      Durable.Keeps (Littered receipt) (finishRecordedPurge platform env) t fun _ => False := by
    intro t held
    unfold finishRecordedPurge
    have refused : ∀ {u : PackageStore} {final : PackageRecord}, Littered receipt u →
        final.generation = receipt.producerGeneration →
        Durable.Keeps (Littered receipt) (do
          ensure (final.participants.all (·.settlement == .disabled))
          purgeSettledState platform env (some final)) u fun _ => False := by
      intro u final kept own
      apply (keeps_ensure kept).bind
      intro _ v whole _
      exact purgeSettledState_refuses whole own
    apply (keeps_litteredRead held).bind
    intro found u kept stored
    apply (keeps_orConflict kept).bind
    intro record v whole same
    have own := stored record same
    apply (keeps_effect whole).bind
    intro _ w intact _
    by_cases unfinished : record.phase ≠ .finalizing
    · rw [if_pos unfinished]
      apply (keeps_cleanupEach intact).bind
      intro _ x settled _
      have writes : ∀ ps, Durable.Keeps (Littered receipt)
          (PackageRecord.write { record with participants := ps, phase := .finalizing }) x
          fun _ => True := fun ps => keeps_litteredWrite settled own
      apply (writes _).bind
      intro _ y written _
      exact refused written own
    · rw [if_neg unfinished]
      exact refused intact own
  unfold finishPurge
  apply (keeps_ensure h).bind
  intro _ t held _
  apply (keeps_intent held).bind
  intro intent u kept _
  apply (keeps_ensure kept).bind
  intro _ v whole _
  apply (keeps_receipt whole).bind
  intro found w intact same
  apply (keeps_ensure intact).bind
  intro _ x settled _
  have receipt_eq : found = some receipt := same.trans whole.kept
  subst receipt_eq
  apply (keeps_litteredPurgedRecord settled).bind
  rintro _ y locked ⟨record, rfl, own⟩
  have writes : Durable.Keeps (Littered receipt)
      (PackageRecord.write { record with kind := .purge }) y fun _ => True :=
    keeps_litteredWrite locked own
  apply writes.bind
  intro _ z written _
  apply (keeps_litteredPreparation written own).bind
  intro _ a prepared _
  cases intent with
  | none => exact ending prepared
  | some intent =>
      apply (keeps_litteredClearQuiesce prepared).bind
      intro _ b cleared _
      exact ending cleared

theorem finishPurge_misintended (h : Misintended receipt store) :
    Durable.Keeps (Misintended receipt)
      (finishPurge platform env receipt.removedVersion) store fun _ => False := by
  unfold finishPurge
  apply (keeps_ensure h).bind
  intro _ t held _
  apply (keeps_intent held).bind
  intro intent u kept stored
  obtain ⟨present, found, foreign⟩ := held.foreign
  have intent_eq : intent = some present := stored.trans found
  subst intent_eq
  apply (keeps_ensure kept).bind
  intro _ v whole fits
  apply (keeps_receipt whole).bind
  intro receipts w intact same
  have receipt_eq : receipts = some receipt := same.trans whole.kept
  subst receipt_eq
  apply (keeps_ensure intact).bind
  intro _ x settled _
  have conflict : Durable.Keeps (Misintended receipt)
      (purgedRecord platform env receipt.removedVersion (some present) (some receipt)) x
      fun _ => False := by
    unfold purgedRecord Platform.read
    apply Durable.Keeps.bind (Durable.keeps_read_bind (keeps_readSized settled))
    intro recorded y locked same
    rw [settled.record] at same
    subst same
    have refused : ∀ record : PackageRecord, Durable.Keeps (Misintended receipt) (do
        ensure (receipt.producerGeneration == present.generation &&
          receipt.removedVersion == present.sourceVersion)
        return some record : Program (Option PackageRecord)) y fun _ => False := by
      intro record
      apply (keeps_ensure locked).bind
      intro _ z _ linked
      simp only [Option.all_some, Bool.and_eq_true, beq_iff_eq] at fits linked
      exact absurd ⟨fits.1, linked.1.symm, linked.2.symm, fits.2⟩ foreign
    exact refused _
  apply conflict.bind
  intro _ _ _ impossible
  exact impossible.elim

theorem blocked_of_foreign (record : store.record = none)
    (kept : store.removalReceipt = some receipt) (foreign : ¬ OnlyOwnFiles receipt store) :
    PurgeBlocked receipt store := by
  apply Classical.byContradiction
  intro free
  have clean : ¬ ForeignFile receipt.producerGeneration store := by
    intro file
    apply free
    apply PurgeBlocked.littered
    refine ⟨file, kept, ?_⟩
    rw [record]
    nofun
  apply foreign
  constructor
  · apply Classical.byContradiction
    exact fun quarantined => clean (.quarantined quarantined)
  · intro intent found
    apply Classical.byContradiction
    exact fun other => free (.misintended ⟨record, kept, intent, found, other⟩)
  · intro temporary mem
    by_cases is_record : temporary = .record receipt.producerGeneration
    · exact .inl is_record
    · by_cases is_controller : temporary = .controller receipt.producerGeneration
      · subst is_controller
        exact .inr ⟨rfl, fun installed => clean (.controllerTemporary mem installed)⟩
      · exact absurd (ForeignFile.temporary temporary mem is_record is_controller) clean
  · intro generation mem
    apply Classical.byContradiction
    exact fun other => clean (.controller generation mem other)

end Blocked

/-! ## The purge of a finished removal -/

/-- Only attempts at the purge of this removal. -/
def Purging (receipt : RemovalReceipt) (events : List PackageEvent) : Prop :=
  ∀ event ∈ events, ∃ env, event = .attempt env (.finishPurge receipt.removedVersion)

section History

variable {platform : Platform} {receipt : RemovalReceipt} {s t : PackageStore}

/-- What every attempt at the purge keeps, a run of them keeps. -/
theorem purging_preserves {P : PackageStore → Prop} {events : List PackageEvent}
    (purging : Purging receipt events)
    (keep : ∀ env u v, P u →
      v ∈ (finishPurge platform env receipt.removedVersion).leaves u → P v)
    (run : (packageMachine platform).Run s events t) (start : P s) : P t := by
  induction run with
  | nil => exact start
  | cons step _ ih =>
      obtain ⟨env, rfl⟩ := purging _ List.mem_cons_self
      apply ih fun event mem => purging event (List.mem_cons_of_mem _ mem)
      exact keep env _ _ start step.2

theorem PurgeReady.leaves (sound : receipt.Sound platform)
    (env : Environment) (ready : PurgeReady platform receipt s)
    (mem : t ∈ (finishPurge platform env receipt.removedVersion).leaves s) :
    PurgeReady platform receipt t := by
  have kept : Durable.Keeps (PurgeReady platform receipt)
      (finishPurge platform env receipt.removedVersion) s fun _ => True :=
    (@finishPurge_progress platform env s receipt sound ready).weaken
      (fun _ _ held => ⟨held.1, trivial⟩) (fun _ _ held => held.1) fun _ held => held
  exact kept.leaves ready mem

/-- Ready, with at most `n` temporaries: `n + 1` attempts are enough. -/
theorem PurgeReady.retries (sound : receipt.Sound platform) {n : Nat}
    (ready : PurgeReady platform receipt s) (few : s.temporaries.length ≤ n) :
    Durable.RetriesTo (fun env : Environment => env.effects.Succeed)
      (fun env => run platform env (.finishPurge receipt.removedVersion)) Purged (n + 1) s := by
  induction n generalizing s with
  | zero =>
      intro env succeed
      refine (@finishPurge_progress platform env s receipt sound ready).weaken
        (fun _ _ held => held.2) ?_ fun _ _ => trivial
      intro e u held
      exact absurd (held.2 succeed) (by omega)
  | succ n ih =>
      intro env succeed
      refine (@finishPurge_progress platform env s receipt sound ready).weaken
        (fun _ _ held => held.2) ?_ fun _ _ => trivial
      intro e u held
      have fewer := held.2 succeed
      exact ih held.1 (by omega)

theorem ready_of_removed (orderly : Orderly platform s) (removed : s.record = none)
    (kept : s.removalReceipt = some receipt) (own : OnlyOwnFiles receipt s) :
    PurgeReady platform receipt s where
  own := own
  stage := .removed removed kept
  distinct := orderly.temporaries
  controllers := orderly.controllers
  readable := orderly.quiesce
  install := orderly.installReceipt

theorem finishPurge_blocked (env : Environment) (h : PurgeBlocked receipt s) :
    Durable.Keeps (PurgeBlocked receipt) (finishPurge platform env receipt.removedVersion) s
      fun _ => False := by
  cases h with
  | misintended h =>
      exact Durable.Meets.weaken (@finishPurge_misintended platform env s receipt h)
        (fun _ _ held => held.2.elim) (fun _ _ held => .misintended held)
        fun _ held => .misintended held
  | littered h =>
      exact Durable.Meets.weaken (@finishPurge_littered platform env s receipt _ h)
        (fun _ _ held => held.2.elim) (fun _ _ held => .littered held)
        fun _ held => .littered held

theorem PurgeBlocked.never_purged {n : Nat} (blocked : PurgeBlocked receipt s) :
    ¬ Durable.RetriesTo (fun env : Environment => env.effects.Succeed)
      (fun env => Connect.run platform env (.finishPurge receipt.removedVersion)) Purged n s := by
  have refused : ∀ u, PurgeBlocked receipt u → Durable.Fails
      (Connect.run platform (sampleEnvironment firstUuid) (.finishPurge receipt.removedVersion))
      u fun _ v => PurgeBlocked receipt v := by
    intro u held
    exact Durable.Meets.weaken (finishPurge_blocked _ held) (fun _ _ returned => returned.2)
      (fun _ _ held => held) fun _ _ => trivial
  exact @Durable.RetriesTo.impossible _ _ _ Environment (fun env => env.effects.Succeed) _ _ _ _
    sampleEffects_succeed refused n s blocked

/-- After any history, and any number of killed purges, a removal that has finished can be purged
exactly when it left no file but its own. -/
theorem purge_completes_iff {events : List PackageEvent}
    (reachable : (packageMachine platform).Reachable s) (removed : s.record = none)
    (kept : s.removalReceipt = some receipt) (purging : Purging receipt events)
    (run : (packageMachine platform).Run s events t) :
    (∃ n, Durable.RetriesTo (fun env : Environment => env.effects.Succeed)
      (fun env => Connect.run platform env (.finishPurge receipt.removedVersion)) Purged n t) ↔
      OnlyOwnFiles receipt s := by
  have orderly := orderly_of_reachable reachable
  have sound := orderly.removalReceipt receipt kept
  constructor
  · rintro ⟨n, retries⟩
    apply Classical.byContradiction
    intro foreign
    have start := blocked_of_foreign removed kept foreign
    have blocked : PurgeBlocked receipt t := by
      apply purging_preserves purging _ run start
      intro env u v held mem
      exact (finishPurge_blocked env held).leaves held mem
    exact absurd retries blocked.never_purged
  · intro own
    have ready : PurgeReady platform receipt t := by
      apply purging_preserves purging _ run (ready_of_removed orderly removed kept own)
      intro env u v held mem
      exact held.leaves sound env mem
    exact ⟨t.temporaries.length + 1, ready.retries sound (Nat.le_refl _)⟩

end History

/-! ### A removal of an installation without registered users -/

/-- The removal that a root goes through under the second UUID. -/
def afterRemoval (store : PackageStore) : PackageStore :=
  let environment := sampleEnvironment secondUuid
  let prepared := (run samplePlatform environment (.prepareRemove "0.1.0") store).last
  (run samplePlatform environment (.finishRemove "0.1.0") prepared).last

def sampleReceipt : RemovalReceipt :=
  ⟨formatVersion, packageId, secondUuid, "0.1.0", []⟩

theorem sampleEnvironment_sound {newV4 : String} (uuid : isHyphenatedUuid newV4 = true) :
    (sampleEnvironment newV4).Sound samplePlatform where
  discovers := by
    intro participants found
    refine ⟨sampleEffects_discovering participants found, ?_⟩
    cases found
    exact nofun
  uuid := uuid

theorem reachable_leaf {platform : Platform} {env : Environment} {action : PackageAction}
    {s t : PackageStore} (reachable : (packageMachine platform).Reachable s)
    (sound : env.Sound platform) (valid : action.Sound)
    (mem : t ∈ (run platform env action).leaves s) : (packageMachine platform).Reachable t := by
  have step : (packageMachine platform).step s (.attempt env action) t := ⟨⟨sound, valid⟩, mem⟩
  exact reachable.next step

theorem reachable_afterRemoval {store : PackageStore}
    (reachable : (packageMachine samplePlatform).Reachable store) :
    (packageMachine samplePlatform).Reachable (afterRemoval store) := by
  have sound := sampleEnvironment_sound (show isHyphenatedUuid secondUuid = true by decide)
  have prepared := reachable_leaf reachable sound
    (show PackageAction.Sound (.prepareRemove "0.1.0") from trivial)
    (List.mem_cons_of_mem _ List.mem_cons_self)
  exact reachable_leaf prepared sound
    (show PackageAction.Sound (.finishRemove "0.1.0") from trivial)
    (List.mem_cons_of_mem _ List.mem_cons_self)

theorem reachable_empty : (packageMachine samplePlatform).Reachable .empty :=
  .of_init rfl

/-- The removal is purged. -/
theorem undisturbed_removal_purges :
    ∃ n, Durable.RetriesTo (fun env : Environment => env.effects.Succeed)
      (fun env => run samplePlatform env (.finishPurge "0.1.0")) Purged n (afterRemoval .empty) := by
  have reached : afterRemoval .empty =
      { PackageStore.empty with
        removalReceipt := some sampleReceipt, controllers := [secondUuid] } := by
    decide
  have own : OnlyOwnFiles sampleReceipt (afterRemoval .empty) := by
    rw [reached]
    exact ⟨rfl, nofun, nofun, List.forall_mem_singleton.mpr rfl⟩
  exact (@purge_completes_iff samplePlatform sampleReceipt _ _ []
    (reachable_afterRemoval reachable_empty) (by rw [reached]; rfl) (by rw [reached]) nofun
    .nil).mpr own

/-- A preparation killed after it created the temporary of its quiesce record. -/
def killedPreparation : PackageStore :=
  PackageStore.empty.draft (.quiesce firstUuid)

/-- The next removal finishes, and can never be purged. -/
theorem killed_preparation_never_purged :
    (packageMachine samplePlatform).Reachable (afterRemoval killedPreparation) ∧
      (afterRemoval killedPreparation).record = none ∧
      (afterRemoval killedPreparation).removalReceipt = some sampleReceipt ∧
      ∀ n, ¬ Durable.RetriesTo (fun env : Environment => env.effects.Succeed)
        (fun env => run samplePlatform env (.finishPurge "0.1.0")) Purged n
        (afterRemoval killedPreparation) := by
  have reached : afterRemoval killedPreparation =
      { PackageStore.empty with
        removalReceipt := some sampleReceipt, controllers := [secondUuid]
        temporaries := [.quiesce firstUuid] } := by
    decide
  have killed : killedPreparation ∈ (run samplePlatform (sampleEnvironment firstUuid)
      (.prepareRemove "0.1.0")).leaves .empty := by
    decide
  have reachable := reachable_leaf reachable_empty
    (sampleEnvironment_sound (show isHyphenatedUuid firstUuid = true by decide))
    (show PackageAction.Sound (.prepareRemove "0.1.0") from trivial) killed
  have record : (afterRemoval killedPreparation).record = none := by
    rw [reached]
    rfl
  have kept : (afterRemoval killedPreparation).removalReceipt = some sampleReceipt := by
    rw [reached]
  have blocked : PurgeBlocked sampleReceipt (afterRemoval killedPreparation) := by
    apply blocked_of_foreign record kept
    intro own
    rw [reached] at own
    rcases own.temporaries (.quiesce firstUuid) List.mem_cons_self with impossible | impossible
    · cases impossible
    · cases impossible.1
  exact ⟨reachable_afterRemoval reachable, record, kept, fun _ => blocked.never_purged⟩

end DocumentSummarizer.Connect
