import DocumentSummarizer.Connect.PackageHistory

/-! # Orderly package roots

What the actions keep of the package root wherever they are stopped: readable
records and receipts, and no file twice.
-/

namespace DocumentSummarizer.Connect

open Library

/-- A participant of an operation that only disables. -/
def Participant.Disabling (p : Participant) : Prop :=
  p.settlement = .pending ∨ p.settlement = .disabled

structure PackageRecord.Sound (platform : Platform) (record : PackageRecord) : Prop where
  header : record.WellFormed platform
  trusted : Trusted platform record.participants
  disabling : record.kind = .remove ∨ record.kind = .purge → record.disposition = .forward →
    ∀ p ∈ record.participants, p.Disabling

structure RemovalReceipt.Sound (platform : Platform) (receipt : RemovalReceipt) : Prop where
  header : receipt.WellFormed platform
  trusted : Trusted platform receipt.participants
  disabled : ∀ p ∈ receipt.participants, p.settlement = .disabled

structure InstallReceipt.Sound (platform : Platform) (receipt : InstallReceipt) : Prop where
  header : receipt.WellFormed platform
  trusted : Trusted platform receipt.participants

structure Orderly (platform : Platform) (store : PackageStore) : Prop where
  temporaries : store.temporaries.Nodup
  controllers : store.controllers.Nodup
  quiesce : ∀ intent, store.quiesce = some intent → intent.readable platform = true
  record : ∀ record, store.record = some record → record.Sound platform
  removalReceipt : ∀ receipt, store.removalReceipt = some receipt → receipt.Sound platform
  installReceipt : ∀ receipt, store.installReceipt = some receipt → receipt.Sound platform

/-! ## One change of the root -/

namespace Orderly

variable {platform : Platform} {store : PackageStore}

theorem empty : Orderly platform PackageStore.empty where
  temporaries := List.nodup_nil
  controllers := List.nodup_nil
  quiesce := nofun
  record := nofun
  removalReceipt := nofun
  installReceipt := nofun

section

variable (h : Orderly platform store)

include h

theorem draft {temporary : Temporary}
    (absent : temporary ∉ store.temporaries) : Orderly platform (store.draft temporary) :=
  { h with temporaries := List.nodup_cons.mpr ⟨absent, h.temporaries⟩ }

theorem dropDraft (temporary : Temporary) :
    Orderly platform (store.dropDraft temporary) :=
  { h with temporaries := h.temporaries.erase temporary }

theorem withRecord {record : PackageRecord}
    (sound : record.Sound platform) : Orderly platform (store.withRecord record) := by
  refine { h with record := ?_ }
  intro other same
  cases same
  exact sound

theorem clearRecord :
    Orderly platform { store with record := none } :=
  { h with record := nofun }

theorem withQuiesce {intent : QuiesceIntent}
    (readable : intent.readable platform = true) :
    Orderly platform { store with quiesce := some intent } := by
  refine { h with quiesce := ?_ }
  intro other same
  cases same
  exact readable

theorem clearQuiesce :
    Orderly platform { store with quiesce := none } :=
  { h with quiesce := nofun }

theorem withRemovalReceipt {receipt : RemovalReceipt}
    (sound : receipt.Sound platform) :
    Orderly platform { store with removalReceipt := some receipt } := by
  refine { h with removalReceipt := ?_ }
  intro other same
  cases same
  exact sound

theorem clearRemovalReceipt :
    Orderly platform { store with removalReceipt := none } :=
  { h with removalReceipt := nofun }

theorem withInstallReceipt {receipt : InstallReceipt}
    (sound : receipt.Sound platform) :
    Orderly platform { store with installReceipt := some receipt } := by
  refine { h with installReceipt := ?_ }
  intro other same
  cases same
  exact sound

theorem clearInstallReceipt :
    Orderly platform { store with installReceipt := none } :=
  { h with installReceipt := nofun }

theorem withControllers {controllers : List String}
    (distinct : controllers.Nodup) :
    Orderly platform { store with controllers := controllers } :=
  { h with controllers := distinct }

theorem withQuarantines (quarantines : List (String × String)) :
    Orderly platform { store with quarantines := quarantines } :=
  { h with }

end

end Orderly

/-! ## Sound records -/

section Records

variable {platform : Platform} {record : PackageRecord}

theorem PackageRecord.Sound.step (h : record.Sound platform) (phase : PackagePhase)
    {participants : List Participant} (same : SameParticipants record.participants participants)
    (disabling : record.kind = .remove ∨ record.kind = .purge → record.disposition = .forward →
      ∀ p ∈ participants, p.Disabling) :
    PackageRecord.Sound platform
      { record with phase := phase, participants := participants } where
  header := h.header.settle record.disposition phase participants
  trusted := h.trusted.same same
  disabling := disabling

theorem PackageRecord.Sound.withPhase (h : record.Sound platform) (phase : PackagePhase) :
    PackageRecord.Sound platform { record with phase := phase } :=
  h.step phase (.refl _) h.disabling

theorem Participant.Refreshed.disabling {p q : Participant} (h : p.Refreshed q)
    (disabling : p.Disabling) : q.Disabling := by
  cases h with
  | same => exact disabling
  | filled => exact disabling

theorem Refreshed.disabling {ps qs : List Participant} (h : Refreshed ps qs)
    (disabling : ∀ p ∈ ps, p.Disabling) : ∀ q ∈ qs, q.Disabling := by
  induction h with
  | nil => exact fun _ mem => absurd mem List.not_mem_nil
  | cons head _ ih =>
      rw [List.forall_mem_cons] at disabling ⊢
      exact ⟨head.disabling disabling.1, ih disabling.2⟩

theorem PackageRecord.Sound.refresh (h : record.Sound platform) (phase : PackagePhase)
    {participants : List Participant} (refreshed : Refreshed record.participants participants) :
    PackageRecord.Sound platform
      { record with phase := phase, participants := participants } :=
  h.step phase refreshed.sameParticipants fun kind forward =>
    refreshed.disabling (h.disabling kind forward)

theorem PackageRecord.Sound.sized (h : record.Sound platform) :
    Sized platform.recordBytes (some record) :=
  h.trusted.sized h.header

end Records

/-! ## Reading and writing -/

section Steps

variable {platform : Platform} {env : Environment} {store : PackageStore}
  {inv : PackageStore → Prop}

/-- The program keeps the root orderly. -/
abbrev KeepsOrder (platform : Platform) {α : Type} (program : Program α) (store : PackageStore)
    (post : α → Prop) : Prop :=
  Durable.Keeps (Orderly platform) program store post

theorem keeps_ensure {condition : Bool} (h : inv store) :
    Durable.Keeps inv (ensure condition) store fun _ => condition = true := by
  cases condition with
  | false => exact Durable.keeps_fail h
  | true => exact Durable.keeps_pure h rfl

theorem keeps_orConflict {α : Type} {value : Option α} (h : inv store) :
    Durable.Keeps inv (orConflict value) store fun a => value = some a := by
  cases value with
  | none => exact Durable.keeps_fail h
  | some a => exact Durable.keeps_pure h rfl

theorem keeps_readSized {α : Type} {bytes : α → Nat} {value : Option α} (h : inv store) :
    Durable.Keeps inv (readSized bytes value) store fun found => found = value := by
  cases value with
  | none => exact Durable.keeps_pure h rfl
  | some a =>
      simp only [readSized]
      split
      · exact Durable.keeps_fail h
      · exact Durable.keeps_pure h rfl

section

variable (h : Orderly platform store)

include h

theorem keeps_readRecord :
    KeepsOrder platform platform.read store fun found =>
      found = store.record ∧ ∀ record, found = some record → record.Sound platform := by
  unfold Platform.read
  apply Durable.keeps_read_bind
  apply (keeps_readSized h).weaken
  intro found same
  exact ⟨same, fun record stored => h.record record (same ▸ stored)⟩

theorem keeps_readRemovalReceipt :
    KeepsOrder platform platform.readRemovalReceipt store fun found =>
      ∀ receipt, found = some receipt → receipt.Sound platform := by
  unfold Platform.readRemovalReceipt
  apply Durable.keeps_read_bind
  apply (keeps_readSized h).weaken
  intro found same receipt stored
  exact h.removalReceipt receipt (same ▸ stored)

theorem keeps_readInstallReceipt :
    KeepsOrder platform platform.readInstallReceipt store fun found =>
      ∀ receipt, found = some receipt → receipt.Sound platform := by
  unfold Platform.readInstallReceipt
  apply Durable.keeps_read_bind
  apply (keeps_readSized h).weaken
  intro found same receipt stored
  exact h.installReceipt receipt (same ▸ stored)

theorem keeps_readQuiesce :
    KeepsOrder platform platform.readQuiesce store fun found =>
      ∀ intent, found = some intent → intent.readable platform = true := by
  unfold Platform.readQuiesce
  apply Durable.keeps_read_bind
  cases found : store.quiesce with
  | none => exact Durable.keeps_pure h nofun
  | some intent =>
      apply (keeps_ensure h).bind
      intro _ t orderly readable
      apply Durable.keeps_pure orderly
      intro other same
      cases same
      exact readable

theorem keeps_writeThrough {temporary : Temporary} {install : PackageStore → PackageStore}
    (installs : ∀ t, Orderly platform t → Orderly platform (install t)) :
    KeepsOrder platform (writeThrough temporary install) store fun _ => True := by
  by_cases left : temporary ∈ store.temporaries
  · exact (writeThrough_refused left).mpr ⟨h.dropDraft _, h.dropDraft _⟩
  · exact (meets_writeThrough left).mpr ⟨h.draft left, installs store h, installs store h, trivial⟩

theorem keeps_write {record : PackageRecord}
    (sound : record.Sound platform) :
    KeepsOrder platform record.write store fun _ => True :=
  keeps_writeThrough h fun _ orderly => orderly.withRecord sound

theorem keeps_writeQuiesce {intent : QuiesceIntent}
    (kind : intent.kind = .upgrade ∨ intent.kind = .remove) :
    KeepsOrder platform (platform.writeQuiesce intent) store fun _ => True := by
  unfold Platform.writeQuiesce
  apply (keeps_ensure h).bind
  intro _ t orderly encodable
  apply keeps_writeThrough orderly
  intro u intact
  apply intact.withQuiesce
  rcases kind with kind | kind <;> simp [QuiesceIntent.readable, encodable, kind]

theorem keeps_clearQuiesce {generation : String} :
    KeepsOrder platform (platform.clearQuiesce generation) store fun _ => True := by
  unfold Platform.clearQuiesce
  apply (keeps_readQuiesce h).bind
  intro found t orderly _
  apply (keeps_orConflict orderly).bind
  intro current u intact _
  apply (keeps_ensure intact).bind
  intro _ v kept _
  exact Durable.keeps_commit kept.clearQuiesce trivial

theorem keeps_clear {generation : String} :
    KeepsOrder platform (platform.clear generation) store fun _ => True := by
  unfold Platform.clear
  apply (keeps_readRecord h).bind
  intro found t orderly _
  apply (keeps_orConflict orderly).bind
  intro current u intact _
  apply (keeps_ensure intact).bind
  intro _ v kept _
  exact Durable.keeps_commit kept.clearRecord trivial

end

theorem keeps_effect {α : Type} {effect : Except PackageControlError α} (h : inv store) :
    Durable.Keeps inv (Durable.lift effect) store fun a => effect = .ok a :=
  Durable.keeps_lift h fun _ success => success

end Steps

/-! ## Preparing -/

section Preparing

variable {platform : Platform} {env : Environment} {store : PackageStore}
  {inv : PackageStore → Prop}

variable {record : PackageRecord}

section

variable (h : Orderly platform store)

include h

theorem keeps_refreshRuntime {done rest : List Participant}
    {participant : Participant}
    (sound : PackageRecord.Sound platform
      { record with participants := done ++ participant :: rest }) :
    KeepsOrder platform (refreshRuntime env record done participant rest) store
      fun q => participant.Refreshed q := by
  unfold refreshRuntime
  by_cases missing : participant.runtimeDevice = none
  · simp only [missing, Option.isNone_none, if_true]
    apply (keeps_effect h).bind
    intro identity t orderly _
    cases identity with
    | none => exact Durable.keeps_pure orderly .same
    | some identity =>
        have filled : participant.Refreshed _ := .filled identity.1 identity.2 missing
        have written := sound.refresh record.phase (.middle done rest filled)
        apply (keeps_write orderly written).bind
        intro _ u intact _
        exact Durable.keeps_pure intact filled
  · have present : participant.runtimeDevice.isNone = false := by
      simpa [Option.isSome_iff_ne_none] using missing
    simp only [present, Bool.false_eq_true, if_false]
    exact Durable.keeps_pure h .same

theorem keeps_stopPublishers {done rest : List Participant}
    (sound : PackageRecord.Sound platform { record with participants := done ++ rest }) :
    KeepsOrder platform (stopPublishers env record done rest) store
      fun qs => Refreshed (done ++ rest) qs := by
  induction rest generalizing done store with
  | nil =>
      rw [List.append_nil]
      exact Durable.keeps_pure h (.refl done)
  | cons participant rest ih =>
      rw [stopPublishers]
      apply (keeps_refreshRuntime h sound).bind
      intro q t orderly refreshed
      apply (keeps_effect orderly).bind
      intro _ t orderly _
      apply (keeps_effect orderly).bind
      intro _ t orderly _
      apply (keeps_effect orderly).bind
      intro _ t orderly _
      have middle : Refreshed (done ++ participant :: rest) ((done ++ [q]) ++ rest) := by
        rw [List.append_assoc]
        exact .middle done rest refreshed
      apply (ih orderly (sound.refresh record.phase middle)).weaken
      intro qs later
      exact middle.trans later

theorem keeps_prepareController :
    KeepsOrder platform (prepareController env record) store fun _ => True := by
  unfold prepareController
  apply Durable.keeps_read_bind
  by_cases present : record.generation ∈ store.controllers
  · simp only [present, if_true]
    exact Durable.keeps_pure h trivial
  · -- a leftover draft goes before a new one is made
    have fresh : ∀ t, Orderly platform t → t.controllers = store.controllers →
        .controller record.generation ∉ t.temporaries →
        KeepsOrder platform (do
          Durable.commit (·.draft (.controller record.generation))
          Durable.lift (env.effects.copyController record)
          Durable.commit fun store =>
            let store := store.dropDraft (.controller record.generation)
            { store with controllers := record.generation :: store.controllers }) t
          fun _ => True := by
      intro t orderly same absent
      have installed : Orderly platform
          { t with controllers := record.generation :: t.controllers } :=
        orderly.withControllers (List.nodup_cons.mpr ⟨same ▸ present, orderly.controllers⟩)
      have drafted := orderly.draft absent
      refine Durable.meets_bind.mpr (Durable.meets_commit.mpr ⟨drafted, ?_⟩)
      refine Durable.meets_bind.mpr (Durable.meets_lift.mpr ⟨fun _ _ => ?_, fun _ _ => drafted⟩)
      refine Durable.meets_commit.mpr ?_
      rw [PackageStore.dropDraft_draft]
      exact ⟨installed, installed, trivial⟩
    simp only [present, if_false]
    by_cases left : .controller record.generation ∈ store.temporaries
    · simp only [left, if_true]
      have gone : .controller record.generation ∉
          (store.dropDraft (.controller record.generation)).temporaries :=
        h.temporaries.not_mem_erase
      exact Durable.meets_bind.mpr (Durable.meets_commit.mpr
        ⟨h.dropDraft _, fresh _ (h.dropDraft _) rfl gone⟩)
    · simp only [left, if_false]
      exact fresh store h rfl left

theorem keeps_continuePreparation
    (sound : record.Sound platform) :
    KeepsOrder platform (continuePreparation env record) store fun _ => True := by
  unfold continuePreparation
  apply (keeps_prepareController h).bind
  intro _ t orderly _
  split
  · apply (keeps_stopPublishers orderly sound).bind
    intro qs u intact refreshed
    exact keeps_write intact (sound.refresh _ refreshed)
  · exact Durable.keeps_pure orderly trivial

end

/-- What the code calls a discovered participant. -/
def Effects.DiscoversPending (platform : Platform) (effects : Effects) : Prop :=
  ∀ participants, effects.discover = .ok participants →
    Trusted platform participants ∧ ∀ p ∈ participants, p.settlement = .pending

theorem recordFromIntent_sound {intent : QuiesceIntent} {participants : List Participant}
    (discovers : env.effects.DiscoversPending platform)
    (found : env.effects.discover = .ok participants)
    (uuid : platform.isUuid intent.generation = true)
    (source : validVersion intent.sourceVersion = true)
    (target : validVersion intent.targetVersion = true) :
    (recordFromIntent intent participants).Sound platform := by
  obtain ⟨trusted, pending⟩ := discovers participants found
  exact ⟨⟨rfl, rfl, uuid, source, target, nofun⟩, trusted, fun _ _ p mem => .inl (pending p mem)⟩

theorem keeps_prepareFromIntent {intent : QuiesceIntent} (h : Orderly platform store)
    (discovers : env.effects.DiscoversPending platform)
    (uuid : platform.isUuid intent.generation = true)
    (source : validVersion intent.sourceVersion = true)
    (target : validVersion intent.targetVersion = true) :
    KeepsOrder platform (prepareFromIntent platform env intent) store fun _ => True := by
  unfold prepareFromIntent
  apply (keeps_readRecord h).bind
  intro found t orderly stored
  cases found with
  | none =>
      apply (keeps_effect orderly).bind
      intro participants u intact success
      apply Durable.Keeps.bind (Durable.keeps_pure intact
        (recordFromIntent_sound discovers success uuid source target))
      intro record v kept sound
      apply (keeps_effect kept).bind
      intro _ w whole _
      apply (keeps_write whole sound).bind
      intro _ x settled _
      exact keeps_continuePreparation settled sound
  | some record =>
      apply (keeps_ensure orderly).bind
      intro _ u intact _
      apply (keeps_ensure intact).bind
      intro _ v kept _
      apply (keeps_ensure kept).bind
      intro _ w whole _
      apply Durable.Keeps.bind (Durable.keeps_pure whole (stored.2 record rfl))
      intro record x settled sound
      apply (keeps_effect settled).bind
      intro _ y locked _
      exact keeps_continuePreparation locked sound

theorem keeps_stopEach {participants : List Participant} (h : inv store) :
    Durable.Keeps inv (stopEach env participants) store fun _ => True := by
  induction participants generalizing store with
  | nil => exact Durable.keeps_pure h trivial
  | cons participant rest ih =>
      rw [stopEach]
      apply (keeps_effect h).bind
      intro _ t orderly _
      apply (keeps_effect orderly).bind
      intro _ u intact _
      apply (keeps_effect intact).bind
      intro _ v kept _
      exact ih kept

theorem keeps_prepare {kind : PackageKind} {source target : String} (h : Orderly platform store)
    (discovers : env.effects.DiscoversPending platform)
    (uuid : platform.isUuid env.newV4 = true) (validSource : validVersion source = true)
    (validTarget : validVersion target = true) :
    KeepsOrder platform (prepare platform env kind source target) store fun _ => True := by
  have stopped : ∀ {record : PackageRecord} {t : PackageStore}, Orderly platform t →
      record.Sound platform → KeepsOrder platform (do
        prepareController env record
        if record.phase = .intentRecorded then
          stopEach env record.participants
          { record with phase := .publishersStopped }.write) t fun _ => True := by
    intro record t orderly sound
    apply (keeps_prepareController orderly).bind
    intro _ u intact _
    split
    · apply (keeps_stopEach intact).bind
      intro _ v kept _
      exact keeps_write kept (sound.withPhase _)
    · exact Durable.keeps_pure intact trivial
  unfold prepare
  apply (keeps_readRecord h).bind
  intro found t orderly stored
  cases found with
  | none =>
      apply (keeps_effect orderly).bind
      intro participants u intact success
      apply Durable.Keeps.bind (Durable.keeps_pure intact
        (@recordFromIntent_sound platform env ⟨env.newV4, kind, source, target, none⟩ participants
          discovers success uuid validSource validTarget))
      intro record v kept sound
      apply (keeps_effect kept).bind
      intro _ w whole _
      apply (keeps_write whole sound).bind
      intro _ x settled _
      exact stopped settled sound
  | some record =>
      apply (keeps_ensure orderly).bind
      intro _ u intact _
      apply (keeps_ensure intact).bind
      intro _ v kept _
      apply Durable.Keeps.bind (Durable.keeps_pure kept (stored.2 record rfl))
      intro record w whole sound
      apply (keeps_effect whole).bind
      intro _ x settled _
      exact stopped settled sound

theorem keeps_ensureQuiesceIntent {kind : PackageKind} {source target : String}
    {generation : Option String} (h : Orderly platform store)
    (kinds : kind = .upgrade ∨ kind = .remove)
    (uuid : platform.isUuid (generation.getD env.newV4) = true) :
    KeepsOrder platform (ensureQuiesceIntent platform env kind source target generation) store
      fun intent => intent.readable platform = true := by
  unfold ensureQuiesceIntent
  apply (keeps_ensure h).bind
  intro _ t orderly validSource
  apply (keeps_ensure orderly).bind
  intro _ u intact validTarget
  apply (keeps_readQuiesce intact).bind
  intro found v kept readable
  cases found with
  | some existing =>
      apply (keeps_ensure kept).bind
      intro _ w whole _
      exact Durable.keeps_pure whole (readable existing rfl)
  | none =>
      apply (keeps_writeQuiesce kept kinds).bind
      intro _ w whole _
      apply Durable.keeps_pure whole
      rcases kinds with rfl | rfl <;>
        simp [QuiesceIntent.readable, QuiesceIntent.encodable, uuid, validSource, validTarget]

end Preparing

end DocumentSummarizer.Connect
