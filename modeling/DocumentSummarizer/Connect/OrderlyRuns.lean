import DocumentSummarizer.Library.TransitionSystem
import DocumentSummarizer.Connect.Orderly

/-! # Orderly histories

Every action keeps the package root orderly, and so does every history of
actions that are killed anywhere.
-/

namespace DocumentSummarizer.Connect

open Library

/-! ## Finishing -/

section Finishing

variable {platform : Platform} {env : Environment} {store : PackageStore}

variable {record : PackageRecord}

section

variable (h : Orderly platform store)

include h

theorem keeps_writeRemovalReceipt
    (sound : (removalReceiptOf record).Sound platform) :
    KeepsOrder platform (writeRemovalReceipt platform record) store fun _ => True := by
  unfold writeRemovalReceipt
  apply (keeps_readRemovalReceipt h).bind
  intro found t orderly _
  cases found with
  | some existing => exact (keeps_ensure orderly).weaken fun _ _ => trivial
  | none => exact keeps_writeThrough orderly fun u intact => intact.withRemovalReceipt sound

theorem keeps_writeInstallReceipt
    (sound : record.Sound platform) :
    KeepsOrder platform (writeInstallReceipt platform record) store fun _ => True := by
  unfold writeInstallReceipt
  apply (keeps_orConflict h).bind
  intro predecessor t orderly own
  have receipt : (installReceiptOf record predecessor).Sound platform :=
    ⟨⟨rfl, rfl, sound.header.generation, sound.header.predecessor predecessor own,
      sound.header.target⟩, sound.trusted⟩
  have installs : ∀ {u}, Orderly platform u → KeepsOrder platform
      (writeThrough (.installReceipt record.generation) fun store =>
        { store with installReceipt := some (installReceiptOf record predecessor) }) u
      fun _ => True :=
    fun intact => keeps_writeThrough intact fun v kept => kept.withInstallReceipt receipt
  apply (keeps_readInstallReceipt orderly).bind
  intro found u intact _
  cases found with
  | none => exact installs intact
  | some existing =>
      apply (keeps_ensure intact).bind
      intro _ v kept _
      split
      · exact (keeps_ensure kept).weaken fun _ _ => trivial
      · apply (keeps_ensure kept).bind
        intro _ w whole _
        exact installs whole

theorem keeps_validateExactRemovalReceipt :
    KeepsOrder platform (validateExactRemovalReceipt platform record) store fun _ => True := by
  unfold validateExactRemovalReceipt
  apply (keeps_readRemovalReceipt h).bind
  intro found t orderly _
  apply (keeps_orConflict orderly).bind
  intro receipt u intact _
  apply (keeps_ensure intact).bind
  intro _ v kept _
  exact (keeps_ensure kept).weaken fun _ _ => trivial

theorem keeps_validateExactInstallReceipt :
    KeepsOrder platform (validateExactInstallReceipt platform record) store fun _ => True := by
  unfold validateExactInstallReceipt
  apply (keeps_readInstallReceipt h).bind
  intro found t orderly _
  apply (keeps_orConflict orderly).bind
  intro receipt u intact _
  apply (keeps_ensure intact).bind
  intro _ v kept _
  exact (keeps_ensure kept).weaken fun _ _ => trivial

theorem keeps_removeExactRemovalReceipt :
    KeepsOrder platform (removeExactRemovalReceipt platform record) store fun _ => True := by
  unfold removeExactRemovalReceipt
  apply (keeps_readRemovalReceipt h).bind
  intro found t orderly _
  cases found with
  | none => exact keeps_validateExactInstallReceipt orderly
  | some receipt =>
      apply (keeps_ensure orderly).bind
      intro _ u intact _
      apply (keeps_ensure intact).bind
      intro _ v kept _
      exact Durable.keeps_commit kept.clearRemovalReceipt trivial

theorem keeps_retireController :
    KeepsOrder platform (retireController record) store fun _ => True := by
  unfold retireController
  apply Durable.keeps_read_bind
  split
  · exact Durable.keeps_commit (h.withControllers (h.controllers.erase _)) trivial
  · split
    · exact Durable.keeps_pure h trivial
    · exact Durable.keeps_fail h

theorem keeps_restoreParticipant {participant : Participant}
    :
    KeepsOrder platform (restoreParticipant platform env record participant) store
      fun _ => True := by
  unfold restoreParticipant
  apply (keeps_effect h).bind
  intro _ t orderly _
  apply (keeps_readRecord orderly).bind
  intro found u intact _
  apply (keeps_orConflict intact).bind
  intro current v kept _
  apply (keeps_ensure kept).bind
  intro _ w whole _
  apply (keeps_effect whole).bind
  intro settlement x settled _
  apply (keeps_effect settled).bind
  intro _ y validated _
  exact Durable.keeps_pure validated trivial

theorem keeps_settleParticipant {restoring : Bool}
    {participant : Participant} :
    KeepsOrder platform (settleParticipant platform env restoring record participant) store
      fun settlement => restoring = false → settlement = .disabled := by
  unfold settleParticipant
  cases restoring with
  | false =>
      apply (keeps_effect h).bind
      intro _ t orderly _
      exact Durable.keeps_pure orderly fun _ => rfl
  | true =>
      apply (keeps_effect h).bind
      intro recovery t orderly _
      cases recovery with
      | ready settlement =>
          apply (keeps_effect orderly).bind
          intro _ u intact _
          exact Durable.keeps_pure intact nofun
      | absent =>
          apply (keeps_effect orderly).bind
          intro _ u intact _
          exact (keeps_restoreParticipant intact).weaken fun _ _ => nofun
      | stopAndRetry =>
          apply (keeps_effect orderly).bind
          intro _ u intact _
          apply (keeps_effect intact).bind
          intro _ v kept _
          exact (keeps_restoreParticipant kept).weaken fun _ _ => nofun

theorem keeps_settleParticipants {restoring : Bool}
    {done rest : List Participant}
    (sound : PackageRecord.Sound platform { record with participants := done ++ rest })
    (direction : restoring = false → record.kind = .remove ∧ record.disposition = .forward)
    (ended : restoring = true → record.kind ≠ .remove ∧ record.kind ≠ .purge ∨
      record.disposition = .rollback)
    (settled : restoring = false → ∀ p ∈ done, p.settlement = .disabled) :
    KeepsOrder platform (settleParticipants platform env restoring record done rest) store
      fun qs => SameParticipants (done ++ rest) qs ∧
        (restoring = false → ∀ q ∈ qs, q.settlement = .disabled) := by
  induction rest generalizing done store with
  | nil =>
      rw [List.append_nil]
      exact Durable.keeps_pure h ⟨.refl done, settled⟩
  | cons participant rest ih =>
      have shift : ∀ p : Participant, done ++ p :: rest = (done ++ [p]) ++ rest := by simp
      rw [settleParticipants]
      split
      · next complete =>
          rw [shift] at sound ⊢
          apply ih h sound
          intro forward p mem
          rcases List.mem_append.mp mem with earlier | last
          · exact settled forward p earlier
          · obtain rfl := List.mem_singleton.mp last
            obtain ⟨kind, disposition⟩ := direction forward
            have disabling := sound.disabling (.inl kind) disposition p (by simp)
            exact disabling.resolve_left complete
      · apply (keeps_refreshRuntime h sound).bind
        intro q t orderly refreshed
        have middle := Refreshed.middle done rest refreshed
        apply (keeps_settleParticipant orderly).bind
        intro settlement u intact disabled
        have settle : SameParticipants (done ++ participant :: rest)
            ((done ++ [{ q with settlement := settlement }]) ++ rest) := by
          rw [List.append_assoc]
          exact middle.sameParticipants.trans (.middle done rest (.settle q settlement))
        have written : PackageRecord.Sound platform { record with
            participants := (done ++ [{ q with settlement := settlement }]) ++ rest } := by
          refine sound.step record.phase settle ?_
          intro kind forward p mem
          cases restoring with
          | true =>
              rcases ended rfl with other | rollback
              · rcases kind with kind | kind
                · exact absurd kind other.1
                · exact absurd kind other.2
              · rw [show record.disposition = .forward from forward] at rollback
                cases rollback
          | false =>
              have all := sound.disabling kind forward
              rcases List.mem_append.mp mem with front | back
              · rcases List.mem_append.mp front with earlier | last
                · exact all p (List.mem_append_left _ earlier)
                · rw [List.mem_singleton.mp last]
                  exact .inr (disabled rfl)
              · exact all p (List.mem_append_right _ (List.mem_cons_of_mem _ back))
        have here := written
        rw [← shift] at here
        apply (keeps_write intact here).bind
        intro _ v kept _
        apply (ih kept written ?_).weaken
        · intro qs later
          exact ⟨settle.trans later.1, later.2⟩
        · intro forward p mem
          rcases List.mem_append.mp mem with earlier | last
          · exact settled forward p earlier
          · rw [List.mem_singleton.mp last]
            exact disabled forward

end

theorem direction_of_restoring {kind : PackageKind}
    (own : record.kind = kind) (other : kind ≠ .purge) :
    ((kind != .remove || record.disposition == .rollback) = false →
      record.kind = .remove ∧ record.disposition = .forward) ∧
    ((kind != .remove || record.disposition == .rollback) = true →
      record.kind ≠ .remove ∧ record.kind ≠ .purge ∨ record.disposition = .rollback) := by
  subst own
  cases hk : record.kind <;> cases hd : record.disposition <;> simp_all

section

variable (h : Orderly platform store)

include h

theorem keeps_settle {kind : PackageKind}
    (sound : record.Sound platform) (own : record.kind = kind) (other : kind ≠ .purge) :
    KeepsOrder platform (settle platform env kind
      (kind != .remove || record.disposition == .rollback) record) store fun _ => True := by
  obtain ⟨direction, ended⟩ := direction_of_restoring own other
  generalize restoring : (kind != .remove || record.disposition == .rollback) = restores at *
  have settling : ∀ {r : PackageRecord} {t : PackageStore}, Orderly platform t →
      r.Sound platform → r.kind = record.kind → r.disposition = record.disposition →
      KeepsOrder platform (if r.phase = .settling then do
          let participants ← settleParticipants platform env restores r [] r.participants
          let settled := { r with participants := participants }
          writeReceipt platform kind restores settled
          let final := { settled with phase := .finalizing }
          final.write
          return final
        else do
          ensure (!r.participants.any (·.settlement == .pending))
          validateReceipt platform kind restores r
          return r) t fun _ => True := by
    intro r t orderly soundHere sameKind sameDisposition
    split
    · apply (keeps_settleParticipants orderly soundHere
        (fun forward => by rw [sameKind, sameDisposition]; exact direction forward)
        (fun rest => by rw [sameKind, sameDisposition]; exact ended rest)
        (fun _ _ mem => absurd mem List.not_mem_nil)).bind
      intro participants u intact settled
      have final : ∀ phase, PackageRecord.Sound platform
          { r with phase := phase, participants := participants } := by
        intro phase
        refine soundHere.step phase settled.1 ?_
        intro kinds forward p mem
        cases hr : restores with
        | false => exact .inr (settled.2 hr p mem)
        | true =>
            rw [sameKind] at kinds
            rw [sameDisposition] at forward
            rcases ended hr with apart | rollback
            · rcases kinds with kind | kind
              · exact absurd kind apart.1
              · exact absurd kind apart.2
            · rw [forward] at rollback
              cases rollback
      refine Durable.Keeps.bind (show KeepsOrder platform _ u (fun _ => True) from ?_) ?_
      · unfold writeReceipt
        split
        · next forward =>
            apply keeps_writeRemovalReceipt intact
            exact ⟨⟨rfl, rfl, soundHere.header.generation, soundHere.header.target⟩,
              (final r.phase).trusted, settled.2 forward.2⟩
        · split
          · exact keeps_writeInstallReceipt intact (final r.phase)
          · exact Durable.keeps_pure intact trivial
      · intro _ v kept _
        apply (keeps_write kept (final .finalizing)).bind
        intro _ w whole _
        exact Durable.keeps_pure whole trivial
    · apply (keeps_ensure orderly).bind
      intro _ u intact _
      refine Durable.Keeps.bind (show KeepsOrder platform _ u (fun _ => True) from ?_) ?_
      · unfold validateReceipt
        split
        · exact keeps_validateExactRemovalReceipt intact
        · split
          · exact keeps_validateExactInstallReceipt intact
          · exact Durable.keeps_pure intact trivial
      · intro _ v kept _
        exact Durable.keeps_pure kept trivial
  unfold settle
  split
  · apply (keeps_write h (sound.withPhase .settling)).bind
    intro _ t orderly _
    exact settling orderly (sound.withPhase .settling) rfl rfl
  · exact settling h sound rfl rfl

theorem keeps_close {kind : PackageKind} {restoring : Bool}
    :
    KeepsOrder platform (close platform kind restoring record) store fun _ => True := by
  have cleared : ∀ {t}, Orderly platform t → KeepsOrder platform (do
      if kind = .reinstall then
        removeExactRemovalReceipt platform record
      platform.clear record.generation) t fun _ => True := by
    intro t orderly
    split
    · apply (keeps_removeExactRemovalReceipt orderly).bind
      intro _ u intact _
      exact keeps_clear intact
    · exact keeps_clear orderly
  unfold close
  cases restoring with
  | true =>
      rw [if_pos rfl]
      apply (keeps_retireController h).bind
      intro _ t orderly _
      exact cleared orderly
  | false => exact cleared h

theorem keeps_finish {kind : PackageKind} {target : String}
    (other : kind ≠ .purge) :
    KeepsOrder platform (finish platform env kind target) store fun _ => True := by
  unfold finish
  apply (keeps_readRecord h).bind
  intro found t orderly stored
  apply (keeps_orConflict orderly).bind
  intro record u intact same
  have sound := stored.2 record same
  apply (keeps_ensure intact).bind
  intro _ v kept valid
  have own : record.kind = kind := by
    simp only [PackageRecord.validFor, Bool.and_eq_true, beq_iff_eq] at valid
    obtain ⟨⟨⟨⟨⟨⟨-, own⟩, -⟩, -⟩, -⟩, -⟩, -⟩ := valid
    exact own
  apply (keeps_effect kept).bind
  intro _ w whole _
  apply (keeps_ensure whole).bind
  intro _ x begun _
  apply (keeps_settle begun sound own other).bind
  intro settled y ended _
  exact keeps_close ended

theorem keeps_clearedFinish {intent : Option QuiesceIntent} {target : String}
    : KeepsOrder platform (do
      match intent with
      | some intent => platform.clearQuiesce intent.generation
      | none => pure ()
      finish platform env .remove target) store fun _ => True := by
  cases intent with
  | some intent =>
      apply (keeps_clearQuiesce h).bind
      intro _ u intact _
      exact keeps_finish intact nofun
  | none => exact keeps_finish h nofun

theorem keeps_abortRemove {target : String} :
    KeepsOrder platform (abortRemove platform env target) store fun _ => True := by
  unfold abortRemove
  apply (keeps_ensure h).bind
  intro _ t orderly _
  apply (keeps_readQuiesce orderly).bind
  intro intent u intact _
  apply (keeps_ensure intact).bind
  intro _ v kept _
  apply (keeps_readRecord kept).bind
  intro found w whole stored
  cases found with
  | none =>
      cases intent with
      | some intent => exact keeps_clearQuiesce whole
      | none => exact Durable.keeps_pure whole trivial
  | some record =>
      have sound := stored.2 record rfl
      apply (keeps_ensure whole).bind
      intro _ x settled _
      apply (keeps_readRemovalReceipt settled).bind
      intro receipt y held _
      apply (keeps_ensure held).bind
      intro _ z again _
      by_cases forward : record.disposition = .forward
      · rw [if_pos forward]
        apply (keeps_ensure again).bind
        intro _ a first _
        apply (keeps_effect first).bind
        intro _ b second _
        have rolled : PackageRecord.Sound platform
            { record with disposition := .rollback, phase := .settling } :=
          ⟨sound.header.settle .rollback .settling record.participants, sound.trusted,
            by rintro _ ⟨⟩⟩
        apply (keeps_write second rolled).bind
        intro _ c third _
        exact keeps_clearedFinish third
      · rw [if_neg forward]
        exact keeps_clearedFinish again

end

end Finishing

/-! ## Reinstalling, adopting and purging -/

section Further

variable {platform : Platform} {env : Environment} {store : PackageStore}

theorem keeps_adoptReinstallController {record : PackageRecord} {receipt : RemovalReceipt}
    (h : Orderly platform store) :
    KeepsOrder platform (adoptReinstallController record receipt) store fun _ => True := by
  unfold adoptReinstallController
  apply Durable.keeps_read_bind
  by_cases present : record.generation ∈ store.controllers
  · rw [if_pos present]
    exact (keeps_ensure h).weaken fun _ _ => trivial
  · rw [if_neg present]
    have renamed : Orderly platform { store with
        controllers := record.generation :: store.controllers.erase receipt.producerGeneration } :=
      h.withControllers (List.nodup_cons.mpr
        ⟨fun mem => present (List.mem_of_mem_erase mem), h.controllers.erase _⟩)
    refine Durable.meets_bind.mpr (meets_ensure.mpr ⟨fun _ => ?_, fun _ => h⟩)
    exact Durable.meets_commit.mpr ⟨renamed, renamed, trivial⟩

theorem recordFromReceipt_sound {receipt : RemovalReceipt} {generation target : String}
    (sound : receipt.Sound platform) (uuid : platform.isUuid generation = true)
    (valid : validVersion target = true) :
    (recordFromReceipt generation target receipt).Sound platform where
  header := by
    refine ⟨rfl, rfl, uuid, sound.header.removed, valid, ?_⟩
    intro g same
    cases same
    exact sound.header.producer
  trusted := sound.trusted.same (.settleAll receipt.participants .pending)
  disabling := by
    intro kind
    rcases kind with kind | kind <;> cases kind

theorem keeps_prepareReinstall {target : String} (h : Orderly platform store)
    (uuid : platform.isUuid env.newV4 = true) (valid : validVersion target = true) :
    KeepsOrder platform (prepareReinstall platform env target) store fun _ => True := by
  unfold prepareReinstall
  apply (keeps_readRemovalReceipt h).bind
  intro found t orderly stored
  apply (keeps_orConflict orderly).bind
  intro receipt u intact same
  apply (keeps_ensure intact).bind
  intro _ v kept _
  apply (keeps_readRecord kept).bind
  intro existing w whole _
  cases existing with
  | some record =>
      apply (keeps_ensure whole).bind
      intro _ x settled _
      apply (keeps_ensure settled).bind
      intro _ y held _
      apply (keeps_effect held).bind
      intro _ z locked _
      exact keeps_adoptReinstallController locked
  | none =>
      apply (keeps_effect whole).bind
      intro _ x locked _
      apply (keeps_write locked (recordFromReceipt_sound (stored receipt same) uuid valid)).bind
      intro _ y written _
      exact keeps_adoptReinstallController written

theorem keeps_openBootstrapQuarantine {intent : QuiesceIntent} (h : Orderly platform store) :
    KeepsOrder platform (openBootstrapQuarantine platform intent) store fun _ => True := by
  unfold openBootstrapQuarantine
  apply (keeps_orConflict h).bind
  intro bootstrap t orderly _
  apply (keeps_ensure orderly).bind
  intro _ u intact _
  apply (keeps_ensure intact).bind
  intro _ v kept _
  apply Durable.keeps_read_bind
  split
  · exact Durable.keeps_pure kept trivial
  · apply (keeps_ensure kept).bind
    intro _ w whole _
    exact Durable.keeps_pure whole trivial

theorem keeps_adoptBootstrap {intent : QuiesceIntent} (h : Orderly platform store)
    (discovers : env.effects.DiscoversPending platform)
    (readable : intent.readable platform = true) :
    KeepsOrder platform (adoptBootstrap platform env intent) store fun _ => True := by
  have parts := readable
  simp only [QuiesceIntent.readable, QuiesceIntent.encodable, Bool.and_eq_true,
    Bool.or_eq_true, beq_iff_eq] at parts
  obtain ⟨⟨⟨⟨⟨uuid, -⟩, source⟩, target⟩, -⟩, kind⟩ := parts
  unfold adoptBootstrap
  apply (keeps_orConflict h).bind
  intro bootstrap t orderly _
  have removed : ∀ {t : PackageStore} {adopted : QuiesceIntent}, Orderly platform t →
      KeepsOrder platform (do
        removeBootstrapQuarantine platform adopted
        platform.clearQuiesce adopted.generation) t fun _ => True := by
    intro t adopted orderly
    refine Durable.Keeps.bind (show KeepsOrder platform _ t (fun _ => True) from ?_) ?_
    · unfold removeBootstrapQuarantine
      apply (keeps_orConflict orderly).bind
      intro legacy u intact _
      apply (keeps_ensure intact).bind
      intro _ v kept _
      apply (keeps_openBootstrapQuarantine kept).bind
      intro present w whole _
      cases present with
      | true => exact Durable.keeps_commit (whole.withQuarantines _) trivial
      | false => exact Durable.keeps_pure whole trivial
    · intro _ u intact _
      exact keeps_clearQuiesce intact
  have adopts : ∀ {t : PackageStore}, Orderly platform t → KeepsOrder platform (do
      prepareFromIntent platform env intent
      let current ← orConflict (← platform.readQuiesce)
      ensure (current == intent)
      let adopted := { intent with bootstrap := some { bootstrap with phase := .adopted } }
      if bootstrap.phase ≠ .adopted then
        platform.writeQuiesce adopted
      removeBootstrapQuarantine platform adopted
      platform.clearQuiesce adopted.generation) t fun _ => True := by
    intro t orderly
    apply (keeps_prepareFromIntent orderly discovers uuid source target).bind
    intro _ u intact _
    apply (keeps_readQuiesce intact).bind
    intro found v kept _
    apply (keeps_orConflict kept).bind
    intro current w whole _
    apply (keeps_ensure whole).bind
    intro _ x settled _
    by_cases fresh : bootstrap.phase ≠ .adopted
    · rw [if_pos fresh]
      refine (keeps_writeQuiesce settled ?_).bind ?_
      · exact kind
      · intro _ y written _
        exact removed written
    · rw [if_neg fresh]
      exact removed settled
  have validated : ∀ {t : PackageStore} {allowMissing : Bool}, Orderly platform t →
      KeepsOrder platform (validateBootstrapQuarantine platform intent allowMissing) t
        fun _ => True := by
    intro t allowMissing orderly
    unfold validateBootstrapQuarantine
    apply (keeps_openBootstrapQuarantine orderly).bind
    intro present u intact _
    exact (keeps_ensure intact).weaken fun _ _ => trivial
  cases phase : bootstrap.phase with
  | quarantining => exact (Durable.keeps_fail orderly : KeepsOrder platform _ t fun _ => True)
  | quiesced =>
      apply (validated orderly).bind
      intro _ u intact _
      simpa only [phase] using adopts intact
  | adopted =>
      apply (validated orderly).bind
      intro _ u intact _
      simpa only [phase] using adopts intact

/-- The end of a purge: the record goes, and the controllers go. -/
def purgeRecordLast (platform : Platform) (record : Option PackageRecord) (base : PackageStore) :
    Program Unit := do
  match record with
  | some record => platform.clear record.generation
  | none => pure ()
  if !base.controllers.isEmpty then
    Durable.commit fun store => { store with controllers := [] }

/-- Before the record, the receipt of the removal. -/
def purgeRemovalFirst (platform : Platform) (record : Option PackageRecord)
    (base : PackageStore) : Program Unit := do
  if base.removalReceipt.isSome then
    Durable.commit fun store => { store with removalReceipt := none }
  purgeRecordLast platform record base

/-- Before both, the receipt of the installation. -/
def purgeInstallFirst (platform : Platform) (record : Option PackageRecord)
    (base : PackageStore) : Program Unit := do
  if base.installReceipt.isSome then
    Durable.commit fun store => { store with installReceipt := none }
  purgeRemovalFirst platform record base

/-- What is left once the install receipt has been looked at. -/
def purgeLooked (platform : Platform) (env : Environment) (record : Option PackageRecord)
    (base : PackageStore) : Program Unit := do
  ensure (base.controllers.all fun generation =>
    platform.isUuid generation && record.all (·.generation == generation))
  ensure (base.controllers.length ≤ 1)
  Durable.lift env.effects.removeParticipantReceipts
  purgeInstallFirst platform record base

variable {record : Option PackageRecord}

section

variable (h : Orderly platform store)

include h

theorem keeps_purgeRecordLast {base : PackageStore}
    :
    KeepsOrder platform (purgeRecordLast platform record base) store fun _ => True := by
  have controllersGone : ∀ {t : PackageStore}, Orderly platform t → KeepsOrder platform (do
      if !base.controllers.isEmpty then
        Durable.commit fun store => { store with controllers := [] }) t fun _ => True := by
    intro t orderly
    split
    · exact Durable.keeps_commit (orderly.withControllers List.nodup_nil) trivial
    · exact Durable.keeps_pure orderly trivial
  cases record with
  | some record =>
      apply (keeps_clear h).bind
      intro _ u intact _
      exact controllersGone intact
  | none => exact controllersGone h

theorem keeps_purgeRemovalFirst {base : PackageStore}
    :
    KeepsOrder platform (purgeRemovalFirst platform record base) store fun _ => True := by
  unfold purgeRemovalFirst
  by_cases present : base.removalReceipt.isSome = true
  · rw [if_pos present]
    apply Durable.keeps_commit_bind h.clearRemovalReceipt
    exact keeps_purgeRecordLast h.clearRemovalReceipt
  · rw [if_neg present]
    exact keeps_purgeRecordLast h

theorem keeps_purgeLooked {base : PackageStore}
    :
    KeepsOrder platform (purgeLooked platform env record base) store fun _ => True := by
  apply (keeps_ensure h).bind
  intro _ u intact _
  apply (keeps_ensure intact).bind
  intro _ v kept _
  apply (keeps_effect kept).bind
  intro _ w whole _
  unfold purgeInstallFirst
  by_cases present : base.installReceipt.isSome = true
  · rw [if_pos present]
    apply Durable.keeps_commit_bind whole.clearInstallReceipt
    exact keeps_purgeRemovalFirst whole.clearInstallReceipt
  · rw [if_neg present]
    exact keeps_purgeRemovalFirst whole

theorem keeps_purgeSettledState :
    KeepsOrder platform (purgeSettledState platform env record) store fun _ => True := by
  unfold purgeSettledState
  apply Durable.keeps_read_bind
  apply (keeps_ensure h).bind
  intro _ t orderly _
  apply (keeps_ensure orderly).bind
  intro _ u intact _
  apply (keeps_readInstallReceipt intact).bind
  intro found v kept _
  cases found with
  | none => exact keeps_purgeLooked kept
  | some receipt =>
      apply (keeps_ensure kept).bind
      intro _ w whole _
      exact keeps_purgeLooked whole

end

/-- The operation that a purge takes over. -/
structure Purgeable (platform : Platform) (record : PackageRecord) : Prop where
  sound : record.Sound platform
  disabling : ∀ p ∈ record.participants, p.Disabling

theorem Purgeable.purge {record : PackageRecord} (h : Purgeable platform record) :
    PackageRecord.Sound platform { record with kind := .purge } where
  header := ⟨h.sound.header.format, h.sound.header.package, h.sound.header.generation,
    h.sound.header.source, h.sound.header.target, h.sound.header.predecessor⟩
  trusted := h.sound.trusted
  disabling := fun _ _ => h.disabling

/-- The record of a purge from what was stored and from the intent. -/
def combinedRecord (env : Environment) (record : Option PackageRecord)
    (intent : Option QuiesceIntent) : Program (Option PackageRecord) := do
  match record, intent with
  | some record, some intent => do
    ensure (record.generation == intent.generation &&
      record.sourceVersion == intent.sourceVersion)
    return some record
  | none, some intent => do
    let participants ← Durable.lift env.effects.discover
    return some (recordFromIntent { intent with kind := .remove, bootstrap := none }
      participants)
  | record, none => return record

theorem keeps_combinedRecord {intent : Option QuiesceIntent}
    (h : Orderly platform store) (discovers : env.effects.DiscoversPending platform)
    (readable : ∀ i, intent = some i → i.readable platform = true)
    (purgeable : ∀ r, record = some r → Purgeable platform r) :
    KeepsOrder platform (combinedRecord env record intent) store
      fun found => ∀ record, found = some record → Purgeable platform record := by
  cases intent with
  | none => cases record <;> exact Durable.keeps_pure h purgeable
  | some intent =>
      cases record with
      | some record =>
          apply (keeps_ensure h).bind
          intro _ u intact _
          exact Durable.keeps_pure intact purgeable
      | none =>
          have parts := readable intent rfl
          simp only [QuiesceIntent.readable, QuiesceIntent.encodable, Bool.and_eq_true] at parts
          obtain ⟨⟨⟨⟨⟨uuid, -⟩, source⟩, valid⟩, -⟩, -⟩ := parts
          apply (keeps_effect h).bind
          intro participants u intact success
          apply Durable.keeps_pure intact
          intro record same
          cases same
          refine ⟨recordFromIntent_sound discovers success uuid source valid, ?_⟩
          intro p mem
          exact .inl ((discovers participants success).2 p mem)

theorem keeps_purgedRecord {target : String} {intent : Option QuiesceIntent}
    {receipt : Option RemovalReceipt} (h : Orderly platform store)
    (discovers : env.effects.DiscoversPending platform)
    (readable : ∀ i, intent = some i → i.readable platform = true)
    (sound : ∀ r, receipt = some r → r.Sound platform) :
    KeepsOrder platform (purgedRecord platform env target intent receipt) store
      fun found => ∀ record, found = some record → Purgeable platform record := by
  unfold purgedRecord
  apply (keeps_readRecord h).bind
  intro found t orderly stored
  cases found with
  | none =>
      refine keeps_combinedRecord orderly discovers readable ?_
      intro record same
      cases receipt with
      | none => cases same
      | some receipt =>
          cases same
          have own := sound receipt rfl
          exact ⟨⟨⟨rfl, rfl, own.header.producer, own.header.removed, own.header.removed,
              by rintro _ ⟨⟩⟩,
            own.trusted, fun _ _ p mem => .inr (own.disabled p mem)⟩,
            fun p mem => .inr (own.disabled p mem)⟩
  | some record =>
      apply (keeps_ensure orderly).bind
      intro _ u intact taken
      apply (keeps_ensure intact).bind
      intro _ v kept _
      apply (keeps_ensure kept).bind
      intro _ w whole _
      refine keeps_combinedRecord whole discovers readable ?_
      intro other same
      cases same
      simp only [Bool.and_eq_true, Bool.or_eq_true, beq_iff_eq] at taken
      have own := stored.2 record rfl
      exact ⟨own, own.disabling taken.2 taken.1⟩

theorem keeps_cleanupEach {inv : PackageStore → Prop} {participants : List Participant}
    (h : inv store) : Durable.Keeps inv (cleanupEach env participants) store fun _ => True := by
  induction participants generalizing store with
  | nil => exact Durable.keeps_pure h trivial
  | cons participant rest ih =>
      rw [cleanupEach]
      apply (keeps_effect h).bind
      intro _ t orderly _
      exact ih orderly

theorem keeps_finishPurge {target : String} (h : Orderly platform store)
    (discovers : env.effects.DiscoversPending platform) :
    KeepsOrder platform (finishPurge platform env target) store fun _ => True := by
  unfold finishPurge
  apply (keeps_ensure h).bind
  intro _ t orderly _
  apply (keeps_readQuiesce orderly).bind
  intro intent u intact readable
  apply (keeps_ensure intact).bind
  intro _ v kept _
  apply (keeps_readRemovalReceipt kept).bind
  intro receipt w whole sound
  apply (keeps_ensure whole).bind
  intro _ x settled _
  apply (keeps_purgedRecord settled discovers readable sound).bind
  intro found y held purgeable
  cases found with
  | none => exact keeps_purgeSettledState held
  | some record =>
      have own := (purgeable record rfl).purge
      apply (keeps_write held own).bind
      intro _ z written _
      apply (keeps_prepareFromIntent written discovers own.header.generation own.header.source
        own.header.target).bind
      intro _ a prepared _
      have purges : ∀ {t : PackageStore}, Orderly platform t →
          KeepsOrder platform (finishRecordedPurge platform env) t fun _ => True := by
        intro t orderly
        unfold finishRecordedPurge
        apply (keeps_readRecord orderly).bind
        intro found u intact stored
        apply (keeps_orConflict intact).bind
        intro record v kept same
        have sound := stored.2 record same
        apply (keeps_effect kept).bind
        intro _ w whole _
        have ended : ∀ {final : PackageRecord} {t : PackageStore}, Orderly platform t →
            KeepsOrder platform (do
              ensure (final.participants.all (·.settlement == .disabled))
              purgeSettledState platform env (some final)) t fun _ => True := by
          intro final t orderly
          apply (keeps_ensure orderly).bind
          intro _ u intact _
          exact keeps_purgeSettledState intact
        by_cases unfinished : record.phase ≠ .finalizing
        · rw [if_pos unfinished]
          apply (keeps_cleanupEach whole).bind
          intro _ x settled _
          have final := sound.step .finalizing (.settleAll record.participants .disabled) (by
            intro _ _ p mem
            obtain ⟨q, -, rfl⟩ := List.mem_map.mp mem
            exact .inr rfl)
          apply (keeps_write settled final).bind
          intro _ y written _
          exact ended written
        · rw [if_neg unfinished]
          exact ended whole
      cases intent with
      | some intent =>
          apply (keeps_clearQuiesce prepared).bind
          intro _ b cleared _
          exact purges cleared
      | none => exact purges prepared

end Further

/-! ## Every action -/

/-- The environment of one run of an action. -/
structure Environment.Sound (platform : Platform) (env : Environment) : Prop where
  discovers : env.effects.DiscoversPending platform
  uuid : platform.isUuid env.newV4 = true

/-- Nothing else checks the version that a reinstall is called with. -/
def PackageAction.Sound : PackageAction → Prop
  | .prepareReinstall target => validVersion target = true
  | _ => True

section Actions

variable {platform : Platform} {env : Environment} {store : PackageStore}

theorem keeps_prepareOperation {kind : PackageKind} {source target : String}
    (h : Orderly platform store) (sound : env.Sound platform)
    (kinds : kind = .upgrade ∨ kind = .remove) :
    KeepsOrder platform (prepareOperation platform env kind source target) store
      fun _ => True := by
  unfold prepareOperation
  apply (@keeps_ensureQuiesceIntent _ _ _ _ source target none h kinds sound.uuid).bind
  intro intent t orderly readable
  simp only [QuiesceIntent.readable, QuiesceIntent.encodable, Bool.and_eq_true] at readable
  obtain ⟨⟨⟨⟨⟨uuid, -⟩, source⟩, target⟩, -⟩, -⟩ := readable
  apply (keeps_prepareFromIntent orderly sound.discovers uuid source target).bind
  intro _ u intact _
  exact keeps_clearQuiesce intact

theorem keeps_resumeRemoval (h : Orderly platform store) (sound : env.Sound platform) :
    KeepsOrder platform (resumeRemoval platform env) store fun _ => True := by
  unfold resumeRemoval
  apply (keeps_readRecord h).bind
  intro found t orderly stored
  cases found with
  | none => exact Durable.keeps_pure orderly trivial
  | some record =>
      have header := (stored.2 record rfl).header
      cases kind : record.kind with
      | remove =>
          simp only [kind]
          apply (keeps_prepare orderly sound.discovers sound.uuid header.source
            header.target).bind
          intro _ u intact _
          exact keeps_finish intact nofun
      | reinstall =>
          simp only [kind]
          exact Durable.keeps_pure orderly trivial
      | upgrade =>
          simp only [kind]
          exact Durable.keeps_fail orderly
      | purge =>
          simp only [kind]
          exact Durable.keeps_fail orderly

/-- Every action keeps the root orderly, wherever it is stopped. -/
theorem keeps_run {action : PackageAction} (h : Orderly platform store)
    (sound : env.Sound platform) (valid : action.Sound) :
    KeepsOrder platform (run platform env action) store fun _ => True := by
  cases action with
  | initializeRoot => exact Durable.keeps_pure h trivial
  | prepareUpgrade source target => exact keeps_prepareOperation h sound (.inl rfl)
  | prepareRemove target => exact keeps_prepareOperation h sound (.inr rfl)
  | adoptBootstrap =>
      apply (keeps_readQuiesce h).bind
      intro found t orderly readable
      apply (keeps_orConflict orderly).bind
      intro intent u intact same
      apply (keeps_ensure intact).bind
      intro _ v kept _
      exact keeps_adoptBootstrap kept sound.discovers (readable intent same)
  | finishUpgrade target => exact keeps_finish h nofun
  | abortRemove target => exact keeps_abortRemove h
  | finishRemove target =>
      apply (keeps_readRecord h).bind
      intro found t orderly _
      apply (keeps_ensure orderly).bind
      intro _ u intact _
      exact keeps_finish intact nofun
  | finishPurge target => exact keeps_finishPurge h sound.discovers
  | recoverInstall target =>
      apply (keeps_readRecord h).bind
      intro found t orderly _
      apply (keeps_orConflict orderly).bind
      intro record u intact _
      cases kind : record.kind with
      | upgrade =>
          exact keeps_finish intact nofun
      | reinstall =>
          exact keeps_finish intact nofun
      | remove =>
          exact Durable.keeps_fail intact
      | purge =>
          exact Durable.keeps_fail intact
  | prepareReinstall target =>
      apply (keeps_resumeRemoval h sound).bind
      intro _ t orderly _
      exact keeps_prepareReinstall orderly sound.uuid valid

end Actions

/-! ## Histories -/

/-- One thing that happens to the package root. -/
inductive PackageEvent where
  /-- A run of an action that ends by itself or is killed. -/
  | attempt (env : Environment) (action : PackageAction)
  /-- `preinst` quarantines a legacy executable. -/
  | quarantine (version target generation : String) (legacy : BootstrapQuiesce)

def PackageEvent.program (platform : Platform) : PackageEvent → Program Unit
  | .attempt env action => run platform env action
  | .quarantine version target generation legacy =>
    quarantineLegacy version target generation legacy

def PackageEvent.Sound (platform : Platform) : PackageEvent → Prop
  | .attempt env action => env.Sound platform ∧ action.Sound
  | .quarantine version target generation legacy =>
    QuiesceIntent.readable platform ⟨generation, .upgrade, version, target, some legacy⟩ = true

/-- The package root over any history of actions, each killed between two of its durable steps
or not. -/
def packageMachine (platform : Platform) : Machine PackageStore PackageEvent where
  init store := store = PackageStore.empty
  step store event next :=
    event.Sound platform ∧ next ∈ (event.program platform).leaves store

theorem orderly_of_reachable {platform : Platform} {store : PackageStore}
    (h : (packageMachine platform).Reachable store) : Orderly platform store := by
  apply h.invariant
  · intro s start
    cases start
    exact .empty
  · intro s event t step orderly
    obtain ⟨sound, mem⟩ := step
    cases event with
    | attempt env action => exact (keeps_run orderly sound.1 sound.2).leaves orderly mem
    | quarantine version target generation legacy =>
        have kept : KeepsOrder platform (quarantineLegacy version target generation legacy) s
            fun _ => True :=
          Durable.keeps_commit ((orderly.withQuiesce sound).withQuarantines _) trivial
        exact kept.leaves orderly mem

end DocumentSummarizer.Connect
