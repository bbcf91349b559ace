import DocumentSummarizer.Connect.Settlement

/-! # Repeating a preparation

Where a preparation can be stopped, what running it again does there, and which
stop points lose the link between the quiesce intent and the operation record.
-/

namespace DocumentSummarizer.Connect

open Library

/-! ## The record of a preparation -/

theorem QuiesceIntent.of_readable {platform : Platform} {intent : QuiesceIntent}
    (h : intent.readable platform = true) :
    platform.isUuid intent.generation = true ∧ validVersion intent.sourceVersion = true ∧
      validVersion intent.targetVersion = true ∧
      (intent.kind = .upgrade ∨ intent.kind = .remove) := by
  simp only [QuiesceIntent.readable, QuiesceIntent.encodable, Bool.and_eq_true, Bool.or_eq_true,
    beq_iff_eq] at h
  exact ⟨h.1.1.1.1.1, h.1.1.1.2, h.1.1.2, h.2⟩

/-- What the record of a preparation looks like at the phase it has reached. -/
inductive Preparing (platform : Platform) (intent : QuiesceIntent) : PackageRecord → Prop where
  | intended (participants : List Participant) (trusted : Trusted platform participants) :
      Preparing platform intent (recordFromIntent intent participants)
  | stopped (participants : List Participant) (trusted : Trusted platform participants) :
      Preparing platform intent
        { recordFromIntent intent participants with phase := .publishersStopped }

namespace Preparing

variable {platform : Platform} {intent : QuiesceIntent} {record : PackageRecord}

section

variable (h : Preparing platform intent record)

include h

theorem trusted : Trusted platform record.participants := by
  cases h with
  | intended _ trusted => exact trusted
  | stopped _ trusted => exact trusted

theorem wellFormed
    (readable : intent.readable platform = true) : record.WellFormed platform := by
  obtain ⟨uuid, source, target, -⟩ := QuiesceIntent.of_readable readable
  cases h <;> exact ⟨rfl, rfl, uuid, source, target, fun _ none => by cases none⟩

theorem sized
    (readable : intent.readable platform = true) : Sized platform.recordBytes (some record) :=
  h.trusted.sized (h.wellFormed readable)

theorem validFor
    (readable : intent.readable platform = true) :
    record.validFor platform intent.kind intent.targetVersion = true := by
  obtain ⟨uuid, -, -, upgrade | remove⟩ := QuiesceIntent.of_readable readable
  · cases h with
    | intended _ trusted =>
        simp [PackageRecord.validFor, recordFromIntent, uuid, upgrade, trusted.valid]
    | stopped _ trusted =>
        simp [PackageRecord.validFor, recordFromIntent, uuid, upgrade, trusted.valid]
  · cases h with
    | intended _ trusted =>
        simp [PackageRecord.validFor, recordFromIntent, uuid, remove, trusted.valid]
    | stopped _ trusted =>
        simp [PackageRecord.validFor, recordFromIntent, uuid, remove, trusted.valid]

theorem matching :
    (record.generation == intent.generation && record.sourceVersion == intent.sourceVersion)
      = true := by
  cases h <;> simp [recordFromIntent]

theorem forward :
    (record.disposition == .forward) = true := by
  cases h <;> rfl

end

end Preparing

/-! ## Steps of a preparation -/

section Steps

variable {platform : Platform} {env : Environment} {stopped : PackageStore → Prop}
  {store : PackageStore}

theorem stopPublishers_meets {record : PackageRecord} {done rest : List Participant}
    (absent : .record record.generation ∉ store.temporaries)
    (stops : ∀ qs, Refreshed (done ++ rest) qs →
      stopped ((store.withRecord { record with participants := qs }).draft
        (.record record.generation)) ∧
      stopped (store.withRecord { record with participants := qs })) :
    Durable.Meets (stopPublishers env record done rest)
      (store.withRecord { record with participants := done ++ rest })
      (fun qs t => Refreshed (done ++ rest) qs ∧
        t = store.withRecord { record with participants := qs })
      (Unsuccessful env) stopped := by
  induction rest generalizing done with
  | nil =>
      simp only [stopPublishers, List.append_nil]
      exact Durable.meets_pure.mpr ⟨.refl done, rfl⟩
  | cons participant rest ih =>
      simp only [stopPublishers]
      refine (refreshRuntime_meets absent (stops _ (.refl _)).1 ?_).seq ?_
      · intro q refreshed
        exact (stops _ (.middle done rest refreshed)).2
      · rintro q t ⟨refreshed, rfl⟩
        have step : Refreshed (done ++ participant :: rest) (done ++ q :: rest) :=
          .middle done rest refreshed
        simp only [Durable.meets_bind]
        refine effect_meets (fun succeed => succeed.stop q) ?_
        refine effect_meets (fun succeed => succeed.suppress q) ?_
        refine effect_meets (fun succeed => succeed.cleanup q) ?_
        have shift : done ++ q :: rest = (done ++ [q]) ++ rest := by simp
        rw [shift] at step ⊢
        refine (ih fun qs later => stops qs (step.trans later)).weaken ?_ ?_ ?_
        · rintro qs u ⟨later, same⟩
          exact ⟨step.trans later, same⟩
        · intro e u failed
          exact failed
        · intro u stays
          exact stays

/-- Only the controllers and their temporaries differ. -/
structure ControllerMoved (s t : PackageStore) : Prop where
  quiesce : t.quiesce = s.quiesce
  record : t.record = s.record
  removalReceipt : t.removalReceipt = s.removalReceipt
  recordDraft : ∀ g, .record g ∈ t.temporaries ↔ .record g ∈ s.temporaries

theorem prepareController_meets {record : PackageRecord}
    (stops : ∀ t, ControllerMoved store t → stopped t) :
    Durable.Meets (prepareController env record) store (fun _ t => ControllerMoved store t)
      (Unsuccessful env) stopped := by
  have drafted : ControllerMoved store (store.draft (.controller record.generation)) := by
    refine ⟨rfl, rfl, rfl, ?_⟩
    intro g
    simp [PackageStore.draft]
  have dropped : ControllerMoved store (store.dropDraft (.controller record.generation)) := by
    refine ⟨rfl, rfl, rfl, ?_⟩
    intro g
    exact List.mem_erase_of_ne (by simp)
  have redrafted : ControllerMoved store
      ((store.dropDraft (.controller record.generation)).draft
        (.controller record.generation)) := by
    refine ⟨rfl, rfl, rfl, ?_⟩
    intro g
    simp only [PackageStore.draft, List.mem_cons, reduceCtorEq, false_or]
    exact dropped.recordDraft g
  simp only [prepareController, Durable.meets_bind, Durable.meets_read]
  split
  · simp only [Durable.meets_pure]
    exact ⟨rfl, rfl, rfl, fun _ => Iff.rfl⟩
  · split
    · simp only [Durable.meets_bind, Durable.meets_commit]
      refine ⟨stops _ dropped, stops _ redrafted, ?_⟩
      refine effect_meets (fun succeed => succeed.copyController record) ?_
      have installed : ControllerMoved store
          { store.dropDraft (.controller record.generation) with
            controllers := record.generation :: store.controllers } :=
        ⟨rfl, rfl, rfl, dropped.recordDraft⟩
      simp only [PackageStore.dropDraft_draft]
      exact ⟨stops _ installed, installed⟩
    · simp only [Durable.meets_bind, Durable.meets_commit]
      refine ⟨stops _ drafted, ?_⟩
      refine effect_meets (fun succeed => succeed.copyController record) ?_
      have installed : ControllerMoved store
          { store with controllers := record.generation :: store.controllers } :=
        ⟨rfl, rfl, rfl, fun _ => Iff.rfl⟩
      simp only [PackageStore.dropDraft_draft]
      exact ⟨stops _ installed, installed⟩

/-- Where a preparation of `intent` that started from `base` can be stopped. -/
structure Interrupted (platform : Platform) (intent : QuiesceIntent) (base u : PackageStore) :
    Prop where
  readable : intent.readable platform = true
  quiesce : u.quiesce = none ∨ u.quiesce = some intent
  record : ∀ r, u.record = some r → Preparing platform intent r
  draft : .record intent.generation ∈ u.temporaries →
    ∀ r, u.record = some r → r.phase = .intentRecorded
  removalReceipt : u.removalReceipt = base.removalReceipt

variable {intent : QuiesceIntent}

theorem Interrupted.controllerMoved {base s t : PackageStore}
    (h : Interrupted platform intent base s) (moved : ControllerMoved s t) :
    Interrupted platform intent base t where
  readable := h.readable
  quiesce := moved.quiesce ▸ h.quiesce
  record := moved.record ▸ h.record
  draft mem := moved.record ▸ h.draft ((moved.recordDraft _).mp mem)
  removalReceipt := moved.removalReceipt.trans h.removalReceipt

theorem Interrupted.intended {base : PackageStore}
    (h : Interrupted platform intent base store) {participants : List Participant}
    (trusted : Trusted platform participants) :
    Interrupted platform intent base (store.withRecord (recordFromIntent intent participants)) where
  readable := h.readable
  quiesce := h.quiesce
  record := by
    rintro r ⟨⟩
    exact .intended participants trusted
  draft := by
    rintro - r ⟨⟩
    rfl
  removalReceipt := h.removalReceipt

/-- The participants that a preparation of this store stops. -/
def startingParticipants (env : Environment) (store : PackageStore) : List Participant :=
  match store.record, env.effects.discover with
  | some record, _ => record.participants
  | none, .ok participants => participants
  | none, .error _ => []

/-- A finished preparation, whose quiesce record is not touched. -/
structure Prepared (platform : Platform) (env : Environment) (intent : QuiesceIntent)
    (s t : PackageStore) : Prop where
  quiesce : t.quiesce = s.quiesce
  record : ∃ ps, t.record = some { recordFromIntent intent ps with phase := .publishersStopped } ∧
    Refreshed (startingParticipants env s) ps ∧ Trusted platform ps
  removalReceipt : t.removalReceipt = s.removalReceipt
  recordDraft : .record intent.generation ∉ t.temporaries

theorem continuePreparation_meets {base : PackageStore}
    {record : PackageRecord} (interrupted : Interrupted platform intent base store)
    (found : store.record = some record) (preparing : Preparing platform intent record)
    (absent : .record intent.generation ∉ store.temporaries) :
    Durable.Meets (continuePreparation env record) store
      (fun _ t => t.quiesce = store.quiesce ∧
        (∃ ps, t.record = some { recordFromIntent intent ps with phase := .publishersStopped } ∧
          Refreshed record.participants ps ∧ Trusted platform ps) ∧
        t.removalReceipt = store.removalReceipt ∧ .record intent.generation ∉ t.temporaries)
      (Unsuccessful env) (Interrupted platform intent base) := by
  unfold continuePreparation
  refine (prepareController_meets fun t => interrupted.controllerMoved).seq ?_
  intro _ t moved
  have kept : .record intent.generation ∉ t.temporaries :=
    fun mem => absent ((moved.recordDraft _).mp mem)
  have after := interrupted.controllerMoved moved
  have recorded : t.record = some record := moved.record.trans found
  cases preparing with
  | stopped ps trusted =>
      refine Durable.meets_pure.mpr ⟨moved.quiesce, ⟨ps, recorded, .refl ps, trusted⟩, ?_, kept⟩
      exact moved.removalReceipt
  | intended ps trusted =>
      have intended : ∀ {qs}, Refreshed ps qs →
          Interrupted platform intent base (t.withRecord (recordFromIntent intent qs)) :=
        fun refreshed => after.intended (trusted.same refreshed.sameParticipants)
      have drafted : ∀ {qs}, Refreshed ps qs → Interrupted platform intent base
          ((t.withRecord (recordFromIntent intent qs)).draft (.record intent.generation)) := by
        intro qs refreshed
        have at_rest := intended refreshed
        refine ⟨at_rest.readable, at_rest.quiesce, at_rest.record, ?_, at_rest.removalReceipt⟩
        rintro - r ⟨⟩
        rfl
      rw [← PackageStore.withRecord_self recorded]
      simp only [recordFromIntent, if_true]
      refine (@stopPublishers_meets env _ t _ [] ps kept fun qs refreshed =>
        ⟨drafted refreshed, intended refreshed⟩).seq ?_
      rintro qs u ⟨refreshed, rfl⟩
      refine (meets_write kept).mpr ⟨drafted refreshed, ?_, ?_⟩
      · refine ⟨after.readable, after.quiesce, ?_, ?_, after.removalReceipt⟩
        · rintro r ⟨⟩
          exact .stopped qs (trusted.same refreshed.sameParticipants)
        · intro mem
          exact absurd mem kept
      · exact ⟨moved.quiesce, ⟨qs, rfl, refreshed, trusted.same refreshed.sameParticipants⟩,
          moved.removalReceipt, kept⟩

theorem prepareFromIntent_meets {base : PackageStore}
    (discovering : env.effects.Discovering platform)
    (interrupted : Interrupted platform intent base store)
    (absent : .record intent.generation ∉ store.temporaries) :
    Durable.Meets (prepareFromIntent platform env intent) store
      (fun _ t => Prepared platform env intent store t) (Unsuccessful env)
      (Interrupted platform intent base) := by
  have readable := interrupted.readable
  have sized : Sized platform.recordBytes store.record := by
    intro r found
    exact (interrupted.record r found).sized readable r rfl
  unfold prepareFromIntent
  simp only [Durable.meets_bind, meets_read sized]
  cases found : store.record with
  | some record =>
      have preparing := interrupted.record record found
      simp only [Durable.meets_bind, meets_ensure, preparing.validFor readable,
        preparing.forward, preparing.matching, Durable.meets_pure, Bool.true_eq_false,
        false_implies, and_true, true_implies, Option.isNone_some, Bool.false_eq_true, if_false]
      refine effect_meets (fun succeed => succeed.lockParticipantAuthorities _) ?_
      refine (continuePreparation_meets interrupted found preparing absent).weaken ?_ ?_ ?_
      · rintro _ t ⟨quiesce, ⟨ps, recorded, refreshed, trusted⟩, receipt, kept⟩
        refine ⟨quiesce, ⟨ps, recorded, ?_, trusted⟩, receipt, kept⟩
        simpa only [startingParticipants, found] using refreshed
      · intro e t failed
        exact failed
      · intro t stays
        exact stays
  | none =>
      simp only [Durable.meets_bind, Option.isNone_none, if_true, Durable.meets_pure]
      refine Durable.meets_lift.mpr ⟨?_, ?_⟩
      · intro participants discovered
        have trusted := discovering participants discovered
        have preparing : Preparing platform intent (recordFromIntent intent participants) :=
          .intended participants trusted
        refine effect_meets (fun succeed => succeed.lockParticipantAuthorities _) ?_
        refine (meets_write absent).mpr ⟨?_, interrupted.intended trusted, ?_⟩
        · refine ⟨interrupted.readable, interrupted.quiesce, interrupted.record, ?_, interrupted.removalReceipt⟩
          intro _ r recorded
          exact absurd (found.symm.trans recorded) (by rintro ⟨⟩)
        · refine (continuePreparation_meets (interrupted.intended trusted) rfl preparing
            absent).weaken ?_ ?_ ?_
          · rintro _ t ⟨quiesce, ⟨ps, recorded, refreshed, later⟩, receipt, kept⟩
            refine ⟨quiesce, ⟨ps, recorded, ?_, later⟩, receipt, kept⟩
            simpa only [startingParticipants, found, discovered, recordFromIntent] using refreshed
          · intro e t failed
            exact failed
          · intro t stays
            exact stays
      · intro e failure succeed
        obtain ⟨participants, success⟩ := succeed.discover
        rw [success] at failure
        cases failure

end Steps

/-! ## Running a preparation -/

/-- The intent that a preparation records when it finds none. -/
def freshIntent (env : Environment) (kind : PackageKind) (source target : String) :
    QuiesceIntent :=
  ⟨env.newV4, kind, source, target, none⟩

/-- No operation is in progress, and the UUID of `env` is unused. -/
structure Idle (platform : Platform) (env : Environment) (base : PackageStore) : Prop where
  quiesce : base.quiesce = none
  record : base.record = none
  quiesceDraft : .quiesce env.newV4 ∉ base.temporaries
  recordDraft : .record env.newV4 ∉ base.temporaries
  receiptSized : Sized platform.removalReceiptBytes base.removalReceipt
  receiptProducer : ∀ receipt, base.removalReceipt = some receipt →
    receipt.producerGeneration ≠ env.newV4

section Runs

variable {platform : Platform} {env : Environment} {kind : PackageKind} {source target : String}
  {base u : PackageStore}

theorem Prepared.interrupted {intent : QuiesceIntent} {s t : PackageStore}
    (h : Prepared platform env intent s t) (before : Interrupted platform intent base s) :
    Interrupted platform intent base t ∧
      Interrupted platform intent base { t with quiesce := none } := by
  obtain ⟨ps, recorded, -, trusted⟩ := h.record
  have shape : ∀ r, t.record = some r → Preparing platform intent r := by
    intro r found
    obtain rfl := Option.some.inj (recorded.symm.trans found)
    exact .stopped ps trusted
  have receipt := h.removalReceipt.trans before.removalReceipt
  constructor
  · exact ⟨before.readable, h.quiesce ▸ before.quiesce, shape,
      fun mem => absurd mem h.recordDraft, receipt⟩
  · exact ⟨before.readable, .inl rfl, shape, fun mem => absurd mem h.recordDraft, receipt⟩

/-- Every crash point of a first preparation. -/
theorem prepareOperation_stays (kinds : kind = .upgrade ∨ kind = .remove)
    (idle : Idle platform env base) (discovering : env.effects.Discovering platform) :
    Durable.Stays (prepareOperation platform env kind source target) base
      (Interrupted platform (freshIntent env kind source target) base) := by
  have none_readable : ∀ intent, base.quiesce = some intent →
      intent.readable platform = true := by
    intro intent found
    cases idle.quiesce.symm.trans found
  unfold Durable.Stays prepareOperation ensureQuiesceIntent
  simp only [Durable.meets_bind, meets_ensure, meets_readQuiesce none_readable, idle.quiesce,
    Platform.writeQuiesce, Option.getD_none, implies_true, and_true]
  intro _ _ encodable
  have readable : (freshIntent env kind source target).readable platform = true := by
    rcases kinds with rfl | rfl <;>
      simpa [QuiesceIntent.readable, freshIntent] using encodable
  have intended : Interrupted platform (freshIntent env kind source target) base
      { base with quiesce := some (freshIntent env kind source target) } := by
    refine ⟨readable, .inr rfl, ?_, fun mem => absurd mem idle.recordDraft, rfl⟩
    intro r found
    cases idle.record.symm.trans found
  refine (meets_writeThrough idle.quiesceDraft).mpr ⟨?_, intended, ?_⟩
  · refine ⟨readable, .inl idle.quiesce, ?_, ?_, rfl⟩
    · intro r found
      cases idle.record.symm.trans found
    · intro _ r found
      cases idle.record.symm.trans found
  · refine Durable.meets_pure.mpr ?_
    refine (prepareFromIntent_meets discovering intended idle.recordDraft).weaken ?_
      (fun _ _ _ => trivial) fun _ stays => stays
    intro _ t prepared
    have ends := prepared.interrupted intended
    exact (meets_clearQuiesce prepared.quiesce readable).mpr ⟨ends.2, trivial⟩

theorem prepareOperation_resumes {first : Environment}
    (discovering : env.effects.Discovering platform)
    (interrupted : Interrupted platform (freshIntent first kind source target) base u)
    (found : u.quiesce = some (freshIntent first kind source target))
    (absent : .record first.newV4 ∉ u.temporaries) :
    Durable.Meets (prepareOperation platform env kind source target) u
      (fun _ t => t.quiesce = none ∧ ∃ r, t.record = some r ∧ r.generation = first.newV4 ∧
        r.phase = .publishersStopped ∧ Refreshed (startingParticipants env u) r.participants)
      (Unsuccessful env) fun _ => True := by
  have readable := interrupted.readable
  obtain ⟨-, validSource, validTarget, -⟩ := QuiesceIntent.of_readable readable
  have validSource : validVersion source = true := validSource
  have validTarget : validVersion target = true := validTarget
  have all_readable : ∀ intent, u.quiesce = some intent → intent.readable platform = true := by
    intro intent same
    obtain rfl := Option.some.inj (found.symm.trans same)
    exact readable
  unfold prepareOperation ensureQuiesceIntent
  simp only [Durable.meets_bind, meets_ensure, validSource, validTarget,
    meets_readQuiesce all_readable, found, Durable.meets_pure, freshIntent, Option.isNone_none,
    beq_self_eq_true, Bool.and_true, Bool.or_true, Bool.true_eq_false, false_implies, and_true,
    true_implies]
  refine (prepareFromIntent_meets discovering interrupted absent).weaken ?_
    (fun _ _ failed => failed) fun _ _ => trivial
  intro _ t prepared
  obtain ⟨ps, recorded, refreshed, -⟩ := prepared.record
  exact (meets_clearQuiesce (prepared.quiesce.trans found) readable).mpr
    ⟨trivial, rfl, _, recorded, rfl, rfl, refreshed⟩

/-- What an aborted operation leaves. -/
def PackageStore.aborted (store : PackageStore) (generation : String) : PackageStore :=
  { store with
    quiesce := none
    record := none
    controllers :=
      if store.record.isSome then store.controllers.erase generation else store.controllers }

/-- Aborting a stopped removal is not refused. -/
theorem abortRemove_meets {first : Environment} (idle : Idle platform first base)
    (interrupted : Interrupted platform (freshIntent first .remove target target) base u)
    (absent : .record first.newV4 ∉ u.temporaries) :
    Durable.Meets (abortRemove platform env target) u (fun _ t => t = u.aborted first.newV4)
      (Unsuccessful env) Anywhere := by
  have readable := interrupted.readable
  obtain ⟨uuid, validTarget, -, -⟩ := QuiesceIntent.of_readable readable
  have validTarget : validVersion target = true := validTarget
  have all_readable : ∀ intent, u.quiesce = some intent → intent.readable platform = true := by
    intro intent same
    rcases interrupted.quiesce with none | own
    · cases none.symm.trans same
    · obtain rfl := Option.some.inj (own.symm.trans same)
      exact readable
  have intent_matches : (u.quiesce.all fun intent => intent.kind == .remove &&
      intent.sourceVersion == target && intent.targetVersion == target &&
      intent.bootstrap.isNone) = true := by
    rcases interrupted.quiesce with none | own
    · simp [none]
    · simp [own, freshIntent]
  have sized : Sized platform.recordBytes u.record := by
    intro r found
    exact (interrupted.record r found).sized readable r rfl
  have receiptSized : Sized platform.removalReceiptBytes u.removalReceipt :=
    interrupted.removalReceipt ▸ idle.receiptSized
  unfold abortRemove
  simp only [Durable.meets_bind, meets_ensure, validTarget, meets_readQuiesce all_readable,
    intent_matches, meets_read sized, Bool.true_eq_false, false_implies, and_true, true_implies]
  cases found : u.record with
  | none =>
      have left : { u with quiesce := none } = u.aborted first.newV4 := by
        cases u
        cases found
        rfl
      rcases interrupted.quiesce with none | own
      · simp only [none]
        refine Durable.meets_pure.mpr (Eq.trans ?_ left)
        cases u
        cases none
        rfl
      · simp only [own]
        exact (meets_clearQuiesce own readable).mpr ⟨trivial, left⟩
  | some record =>
      have preparing := interrupted.record record found
      obtain ⟨ps, phase, trusted, started, rfl⟩ : ∃ ps phase, Trusted platform ps ∧
          (phase = .intentRecorded ∨ phase = .publishersStopped) ∧
          record = { recordFromIntent (freshIntent first .remove target target) ps with
            phase := phase } := by
        cases preparing with
        | intended ps trusted => exact ⟨ps, .intentRecorded, trusted, .inl rfl, rfl⟩
        | stopped ps trusted => exact ⟨ps, .publishersStopped, trusted, .inr rfl, rfl⟩
      have own_generation : (u.quiesce.all (·.generation == first.newV4)) = true := by
        rcases interrupted.quiesce with none | own
        · simp [none]
        · simp [own, freshIntent]
      have other_producer : (u.removalReceipt.any (·.producerGeneration == first.newV4))
          = false := by
        rw [interrupted.removalReceipt]
        cases receipt : base.removalReceipt with
        | none => rfl
        | some value => simpa using idle.receiptProducer value receipt
      have begun : (phase == .intentRecorded || phase == .publishersStopped) = true := by
        rcases started with rfl | rfl <;> rfl
      have validFor := preparing.validFor readable
      simp only [freshIntent, recordFromIntent] at validFor
      -- whichever way the quiesce record goes, the rollback is then finished
      have finishing : ∀ s : PackageStore, s.record = some
            { recordFromIntent (freshIntent first .remove target target) ps with
              disposition := .rollback, phase := .settling } →
          .record first.newV4 ∉ s.temporaries →
          Durable.Meets (finish platform env .remove target) s
            (fun _ t => t = { s with
              record := none, controllers := s.controllers.erase first.newV4 })
            (Unsuccessful env) Anywhere := by
        intro s rolled kept
        have valid : ({ recordFromIntent (freshIntent first .remove target target) ps with
            disposition := .rollback, phase := .settling } : PackageRecord).validFor platform
              .remove target = true := by
          have uuid : platform.isUuid first.newV4 = true := uuid
          simp [PackageRecord.validFor, recordFromIntent, freshIntent, uuid, trusted.valid]
        refine finish_restores rolled ?_ trusted valid (.inr rfl) kept (.inr ⟨rfl, rfl⟩)
        exact (preparing.wellFormed readable).settle .rollback .settling ps
      simp only [Durable.meets_bind, meets_ensure, validFor, meets_readRemovalReceipt receiptSized,
        recordFromIntent, freshIntent, own_generation, other_producer, begun, beq_self_eq_true,
        Bool.not_false, Bool.and_true, Bool.true_eq_false, false_implies, and_true, true_implies,
        if_true]
      refine effect_meets (fun succeed => succeed.lockParticipantAuthorities _) ?_
      refine (meets_write ?_).mpr ⟨trivial, trivial, ?_⟩
      · exact absent
      · have left : u.aborted first.newV4 = { u with
            quiesce := none, record := none,
            controllers := u.controllers.erase first.newV4 } := by
          simp only [PackageStore.aborted, found, Option.isSome_some, if_true]
        rw [left]
        rcases interrupted.quiesce with none | own
        · simp only [none]
          refine (finishing _ rfl ?_).weaken ?_ (fun _ _ failed => failed) fun _ stays => stays
          · exact absent
          · rintro _ t rfl
            simp only [PackageStore.withRecord, none]
        · simp only [own, Durable.meets_bind]
          refine (meets_clearQuiesce ?_ readable).mpr ⟨trivial, ?_⟩
          · exact own
          · refine (finishing _ rfl ?_).weaken ?_ (fun _ _ failed => failed) fun _ stays => stays
            · exact absent
            · rintro _ t rfl
              rfl

end Runs

/-! ## Where the link is lost -/

section Refusals

variable {platform : Platform} {env : Environment} {store : PackageStore}

theorem write_ensures {record : PackageRecord} {post : Unit → PackageStore → Prop}
    (written : .record record.generation ∉ store.temporaries →
      post () (store.withRecord record)) :
    Durable.Ensures record.write store post := by
  by_cases left : .record record.generation ∈ store.temporaries
  · exact (writeThrough_refused left).mpr ⟨trivial, trivial⟩
  · exact (meets_write left).mpr ⟨trivial, trivial, written left⟩

theorem effect_ensures {α : Type} {effect : Except PackageControlError α}
    {post : α → PackageStore → Prop} (after : ∀ a, post a store) :
    Durable.Ensures (Durable.lift effect) store post :=
  Durable.meets_lift.mpr ⟨fun a _ => after a, fun _ _ => trivial⟩

theorem stopPublishers_keeps {record : PackageRecord} {done rest : List Participant}
    (kept : PackageStore → Prop)
    (writes : ∀ s qs, kept s → .record record.generation ∉ s.temporaries →
      kept (s.withRecord { record with participants := qs }))
    (h : kept store) :
    Durable.Ensures (stopPublishers env record done rest) store fun _ t => kept t := by
  induction rest generalizing done store with
  | nil => exact Durable.meets_pure.mpr h
  | cons participant rest ih =>
      have refreshed : Durable.Ensures (refreshRuntime env record done participant rest) store
          fun _ t => kept t := by
        unfold refreshRuntime
        split
        · refine Durable.meets_bind.mpr (effect_ensures fun identity => ?_)
          cases identity with
          | none => exact Durable.meets_pure.mpr h
          | some identity =>
              refine Durable.meets_bind.mpr (write_ensures fun absent => ?_)
              exact Durable.meets_pure.mpr (writes _ _ h absent)
        · exact Durable.meets_pure.mpr h
      simp only [stopPublishers]
      refine Durable.Meets.seq refreshed ?_
      intro q t kept
      simp only [Durable.meets_bind]
      exact effect_ensures fun _ => effect_ensures fun _ => effect_ensures fun _ => ih kept

theorem prepareController_ensures (record : PackageRecord) :
    Durable.Ensures (prepareController env record) store fun _ t => ControllerMoved store t :=
  (prepareController_meets fun _ _ => trivial).weaken (fun _ _ moved => moved)
    (fun _ _ _ => trivial) fun _ (stays : True) => stays

theorem continuePreparation_blocked {record : PackageRecord}
    (intended : record.phase = .intentRecorded)
    (left : .record record.generation ∈ store.temporaries) :
    Durable.Ensures (continuePreparation env record) store fun _ _ => False := by
  unfold continuePreparation
  refine (prepareController_ensures record).seq ?_
  intro _ t moved
  have still : .record record.generation ∈ t.temporaries := (moved.recordDraft _).mpr left
  simp only [intended, if_true]
  refine Durable.Meets.seq (stopPublishers_keeps
    (fun s => .record record.generation ∈ s.temporaries) ?_ still) ?_
  · intro s qs mem absent
    exact absurd mem absent
  · intro qs s mem
    exact write_ensures fun absent => absent mem

theorem read_ensures {α : Type} {bytes : α → Nat} {value : Option α}
    {post : Option α → PackageStore → Prop} (h : post value store) :
    Durable.Ensures (readSized bytes value) store post := by
  cases value with
  | none => exact Durable.meets_pure.mpr h
  | some a =>
      simp only [readSized]
      split
      · exact Durable.meets_fail.mpr trivial
      · exact Durable.meets_pure.mpr h

theorem prepareFromIntent_generation (intent : QuiesceIntent) :
    Durable.Ensures (prepareFromIntent platform env intent) store fun _ t =>
      ∀ r, t.record = some r → r.generation = intent.generation := by
  have continues : ∀ (record : PackageRecord) (s : PackageStore), s.record = some record →
      record.generation = intent.generation →
      Durable.Ensures (continuePreparation env record) s fun _ t =>
        ∀ r, t.record = some r → r.generation = intent.generation := by
    intro record s found own
    unfold continuePreparation
    refine (prepareController_ensures record).seq ?_
    intro _ t moved
    have kept : ∀ r, t.record = some r → r.generation = intent.generation := by
      intro r same
      obtain rfl := Option.some.inj ((moved.record.trans found).symm.trans same)
      exact own
    split
    · refine Durable.Meets.seq (stopPublishers_keeps
        (fun s => ∀ r, s.record = some r → r.generation = intent.generation) ?_ kept) ?_
      · rintro s qs - - r ⟨⟩
        exact own
      · intro qs s _
        refine write_ensures ?_
        rintro - r ⟨⟩
        exact own
    · exact Durable.meets_pure.mpr kept
  unfold prepareFromIntent Platform.read
  simp only [Durable.Ensures, Durable.meets_bind, Durable.meets_read]
  refine read_ensures ?_
  cases found : store.record with
  | some record =>
      simp only [Durable.meets_bind, meets_ensure, Durable.meets_pure, Option.isNone_some,
        Bool.false_eq_true, if_false, implies_true, and_true, Bool.and_eq_true, beq_iff_eq]
      rintro - - ⟨own, -⟩
      exact effect_ensures fun _ => continues record store found own
  | none =>
      simp only [Durable.meets_bind, Durable.meets_pure, Option.isNone_none, if_true]
      refine effect_ensures fun participants => effect_ensures fun _ => ?_
      exact write_ensures fun _ => continues _ _ rfl rfl

/-- A leftover draft blocks every preparation whose publishers are not stopped. -/
theorem prepareFromIntent_blocked {intent : QuiesceIntent}
    (unstopped : ∀ r, store.record = some r → r.phase = .intentRecorded)
    (left : .record intent.generation ∈ store.temporaries) :
    Durable.Ensures (prepareFromIntent platform env intent) store fun _ _ => False := by
  unfold prepareFromIntent Platform.read
  simp only [Durable.Ensures, Durable.meets_bind, Durable.meets_read]
  refine read_ensures ?_
  cases found : store.record with
  | some record =>
      simp only [Durable.meets_bind, meets_ensure, Durable.meets_pure, Option.isNone_some,
        Bool.false_eq_true, if_false, implies_true, and_true, Bool.and_eq_true, beq_iff_eq]
      rintro - - ⟨own, -⟩
      refine effect_ensures fun _ => ?_
      exact continuePreparation_blocked (unstopped record found) (own ▸ left)
  | none =>
      simp only [Durable.meets_bind, Durable.meets_pure, Option.isNone_none, if_true]
      refine effect_ensures fun participants => effect_ensures fun _ => ?_
      exact write_ensures fun absent => absurd left absent

theorem clearQuiesce_ensures {generation : String} {post : Unit → PackageStore → Prop}
    (after : post () { store with quiesce := none }) :
    Durable.Ensures (platform.clearQuiesce generation) store post := by
  unfold Platform.clearQuiesce Platform.readQuiesce
  simp only [Durable.Ensures, Durable.meets_bind, Durable.meets_read]
  cases store.quiesce with
  | none =>
      simp only [Durable.meets_pure, meets_orConflict, implies_true, and_true]
      intro a none
      cases none
  | some intent =>
      simp only [Durable.meets_bind, meets_ensure, Durable.meets_pure, meets_orConflict,
        Durable.meets_commit, implies_true, and_true, true_and]
      intro _ a _ _
      exact after

end Refusals

/-! ## Repeating it -/

/-- The actions that prepare an operation of the given kind and versions. -/
inductive Prepares : PackageAction → PackageKind → String → String → Prop where
  | upgrade (source target : String) :
      Prepares (.prepareUpgrade source target) .upgrade source target
  | remove (target : String) : Prepares (.prepareRemove target) .remove target target

/-- Running the stopped preparation of `first` again from `u` returns, with one record: the
first attempt's, publishers stopped, no quiesce record. -/
def Resumes (platform : Platform) (first again : Environment) (action : PackageAction)
    (u : PackageStore) : Prop :=
  Durable.Returns (run platform again action) u fun _ t =>
    t.quiesce = none ∧ ∃ r, t.record = some r ∧ r.generation = first.newV4 ∧
      r.phase = .publishersStopped ∧ Refreshed (startingParticipants again u) r.participants

/-- A removal that is stopped at `u` can be aborted. -/
def Abortable (platform : Platform) (again : Environment) (action : PackageAction)
    (u : PackageStore) : Prop :=
  ∀ target, action = .prepareRemove target →
    Durable.Returns (run platform again (.abortRemove target)) u fun _ t => t.record = none

section Repetition

variable {platform : Platform} {first again : Environment} {action : PackageAction}
  {kind : PackageKind} {source target : String} {base u : PackageStore}

section

variable (h : Prepares action kind source target)

include h

theorem Prepares.run_eq (env : Environment) :
    run platform env action = prepareOperation platform env kind source target := by
  cases h <;> rfl

theorem Prepares.kinds :
    kind = .upgrade ∨ kind = .remove := by
  cases h with
  | upgrade => exact .inl rfl
  | remove => exact .inr rfl

theorem Prepares.interrupted
    (idle : Idle platform first base) (discovering : first.effects.Discovering platform)
    (stopped : u ∈ (run platform first action base).visited) :
    Interrupted platform (freshIntent first kind source target) base u := by
  rw [h.run_eq] at stopped
  exact (prepareOperation_stays h.kinds idle discovering).visited stopped

theorem Prepares.resumes
    (interrupted : Interrupted platform (freshIntent first kind source target) base u)
    (discovering : again.effects.Discovering platform) (succeed : again.effects.Succeed)
    (found : u.quiesce ≠ none) (absent : .record first.newV4 ∉ u.temporaries) :
    Resumes platform first again action u := by
  have own : u.quiesce = some (freshIntent first kind source target) :=
    interrupted.quiesce.resolve_left found
  unfold Resumes
  rw [h.run_eq]
  exact (prepareOperation_resumes discovering interrupted own absent).weaken
    (fun _ _ resumed => resumed) (fun _ _ unsuccessful => unsuccessful succeed)
    fun _ _ => trivial

/-- Without its quiesce record the preparation works under a generation of its own. -/
theorem Prepares.quiesce_present
    (fresh : again.newV4 ≠ first.newV4) (resumes : Resumes platform first again action u) :
    u.quiesce ≠ none := by
  intro missing
  have renamed : Durable.Ensures (prepareOperation platform again kind source target) u
      fun _ t => ∀ r, t.record = some r → r.generation = again.newV4 := by
    unfold Durable.Ensures prepareOperation ensureQuiesceIntent Platform.writeQuiesce
      Platform.readQuiesce
    simp only [Durable.meets_bind, Durable.meets_read, meets_ensure, missing, Durable.meets_pure,
      implies_true, and_true]
    intro _ _ _
    have continues : Durable.Ensures (prepareFromIntent platform again
          (freshIntent again kind source target))
        { u with quiesce := some (freshIntent again kind source target) } fun _ t =>
          ∀ r, t.record = some r → r.generation = again.newV4 :=
      prepareFromIntent_generation _
    have writes : Durable.Ensures (writeThrough (.quiesce again.newV4)
        fun store => { store with quiesce := some (freshIntent again kind source target) }) u
        fun _ t => t = { u with quiesce := some (freshIntent again kind source target) } := by
      by_cases left : .quiesce again.newV4 ∈ u.temporaries
      · exact (writeThrough_refused left).mpr ⟨trivial, trivial⟩
      · exact (meets_writeThrough left).mpr ⟨trivial, trivial, rfl⟩
    refine writes.weaken ?_ (fun _ _ _ => trivial) fun _ _ => trivial
    rintro _ t rfl
    refine continues.weaken ?_ (fun _ _ _ => trivial) fun _ _ => trivial
    intro _ t own
    exact clearQuiesce_ensures own
  unfold Resumes at resumes
  rw [h.run_eq] at resumes
  obtain ⟨_, t, own, -, r, found, generation, -⟩ := renamed.returns resumes
  exact fresh ((own r found).symm.trans generation)

/-- A leftover draft of the record refuses the write that the preparation still needs. -/
theorem Prepares.draft_absent
    (interrupted : Interrupted platform (freshIntent first kind source target) base u)
    (found : u.quiesce ≠ none) (resumes : Resumes platform first again action u) :
    .record first.newV4 ∉ u.temporaries := by
  intro left
  have own : u.quiesce = some (freshIntent first kind source target) :=
    interrupted.quiesce.resolve_left found
  have all_readable : ∀ intent, u.quiesce = some intent → intent.readable platform = true := by
    intro intent same
    obtain rfl := Option.some.inj (own.symm.trans same)
    exact interrupted.readable
  have blocked : Durable.Ensures (prepareOperation platform again kind source target) u
      fun _ _ => False := by
    unfold Durable.Ensures prepareOperation ensureQuiesceIntent
    simp only [Durable.meets_bind, meets_ensure, meets_readQuiesce all_readable, own,
      Durable.meets_pure, implies_true, and_true]
    intro _ _ _
    exact (prepareFromIntent_blocked (interrupted.draft left) left).weaken
      (fun _ _ => False.elim) (fun _ _ _ => trivial) fun _ _ => trivial
  unfold Resumes at resumes
  rw [h.run_eq] at resumes
  obtain ⟨_, _, impossible, -⟩ := blocked.returns resumes
  exact impossible

end

/-- A stopped preparation can be repeated, and a removal aborted, exactly while its quiesce
record is on disk and no draft of its operation record was left behind. -/
theorem interrupted_preparation_reruns_iff (prepares : Prepares action kind source target)
    (idle : Idle platform first base) (discovering : first.effects.Discovering platform)
    (stopped : u ∈ (run platform first action base).visited)
    (discoveringAgain : again.effects.Discovering platform) (succeed : again.effects.Succeed)
    (fresh : again.newV4 ≠ first.newV4) :
    Resumes platform first again action u ∧ Abortable platform again action u ↔
      u.quiesce ≠ none ∧ .record first.newV4 ∉ u.temporaries := by
  have interrupted := prepares.interrupted idle discovering stopped
  constructor
  · rintro ⟨resumes, -⟩
    have found := prepares.quiesce_present fresh resumes
    exact ⟨found, prepares.draft_absent interrupted found resumes⟩
  · rintro ⟨found, absent⟩
    refine ⟨prepares.resumes interrupted discoveringAgain succeed found absent, ?_⟩
    rintro version rfl
    cases prepares
    refine (abortRemove_meets idle interrupted absent).weaken ?_
      (fun _ _ unsuccessful => unsuccessful succeed) fun _ _ => trivial
    rintro _ t rfl
    rfl

/-! ### An installation without registered users -/

def isHyphenatedUuid (value : String) : Bool :=
  value.length == 36 && value.toList.zipIdx.all fun (c, i) =>
    if i ∈ [8, 13, 18, 23] then c == '-' else c.isDigit || ('a' ≤ c && c ≤ 'f')

/-- Records without participants, whose encodings are a few hundred bytes long. -/
def samplePlatform : Platform where
  isUuid := isHyphenatedUuid
  recordBytes _ := 400
  removalReceiptBytes _ := 300
  installReceiptBytes _ := 300

def sampleEffects : Effects where
  discover := .ok []
  stop _ := .ok ()
  suppress _ := .ok ()
  restore _ _ := .ok .disabled
  recoverPendingRestore _ _ := .ok .absent
  validateRestored _ _ _ := .ok ()
  cleanup _ := .ok ()
  refreshRuntimeIdentity _ := .ok none
  copyController _ := .ok ()
  lockParticipantAuthorities _ := .ok ()
  removeParticipantReceipts := .ok ()

def sampleEnvironment (newV4 : String) : Environment :=
  ⟨sampleEffects, newV4⟩

def firstUuid : String := "5b0c7f52-55c5-4c5e-9f1c-0a4b5d6e7f80"

def secondUuid : String := "c1a2b3d4-e5f6-4789-8abc-def012345678"

/-- The store that a whole removal preparation leaves. -/
def preparedStore : PackageStore :=
  (run samplePlatform (sampleEnvironment firstUuid) (.prepareRemove "0.1.0") .empty).last

theorem interrupted_preparation_not_repeatable :
    preparedStore ∈
        (run samplePlatform (sampleEnvironment firstUuid) (.prepareRemove "0.1.0") .empty).visited ∧
      (run samplePlatform (sampleEnvironment secondUuid) (.prepareRemove "0.1.0")
        preparedStore).outcome = .error .conflict := by
  decide

/-- The store of a removal stopped right after its record was written. -/
def recordedStore : PackageStore :=
  let intent := freshIntent (sampleEnvironment firstUuid) .remove "0.1.0" "0.1.0"
  { PackageStore.empty with quiesce := some intent, record := some (recordFromIntent intent []) }

theorem sampleEffects_succeed : sampleEffects.Succeed where
  discover := ⟨[], rfl⟩
  stop _ := rfl
  suppress _ := rfl
  restore _ _ := ⟨.disabled, rfl⟩
  recoverPendingRestore _ _ := ⟨.absent, rfl⟩
  validateRestored _ _ _ := rfl
  cleanup _ := rfl
  refreshRuntimeIdentity _ := ⟨none, rfl⟩
  copyController _ := rfl
  lockParticipantAuthorities _ := rfl
  removeParticipantReceipts := rfl

theorem sampleEffects_discovering : sampleEffects.Discovering samplePlatform := by
  rintro participants ⟨⟩
  have records : InBounds 400 := ⟨by decide, by decide⟩
  have receipts : InBounds 300 := ⟨by decide, by decide⟩
  exact ⟨rfl, fun _ _ _ => records, fun _ _ _ => receipts, fun _ _ _ => receipts⟩

theorem empty_idle (newV4 : String) :
    Idle samplePlatform (sampleEnvironment newV4) .empty where
  quiesce := rfl
  record := rfl
  quiesceDraft := List.not_mem_nil
  recordDraft := List.not_mem_nil
  receiptSized := nofun
  receiptProducer := nofun

theorem recorded_removal_reruns :
    Resumes samplePlatform (sampleEnvironment firstUuid) (sampleEnvironment secondUuid)
        (.prepareRemove "0.1.0") recordedStore ∧
      Abortable samplePlatform (sampleEnvironment secondUuid) (.prepareRemove "0.1.0")
        recordedStore :=
  (interrupted_preparation_reruns_iff (.remove "0.1.0") (empty_idle firstUuid)
    sampleEffects_discovering (by decide) sampleEffects_discovering sampleEffects_succeed
    (by decide)).mpr ⟨by decide, by decide⟩

end Repetition

end DocumentSummarizer.Connect
