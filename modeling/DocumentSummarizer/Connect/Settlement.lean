import DocumentSummarizer.Connect.Participants

/-! # Finishing an operation

What `finish` leaves when its effects succeed: the record is cleared, the
receipts are those of its kind.
-/

namespace DocumentSummarizer.Connect

open Library

section Finishing

variable {platform : Platform} {env : Environment} {store : PackageStore}
  {failed : PackageControlError → PackageStore → Prop}

/-- The crash points of a finishing operation carry no obligation here. -/
abbrev Anywhere : PackageStore → Prop :=
  fun _ => True

variable {record : PackageRecord}

theorem PackageRecord.WellFormed.settle
    (h : record.WellFormed platform) (disposition : PackageDisposition) (phase : PackagePhase)
    (participants : List Participant) :
    PackageRecord.WellFormed platform
      { record with disposition := disposition, phase := phase, participants := participants } :=
  ⟨h.format, h.package, h.generation, h.source, h.target, h.predecessor⟩

theorem restoreParticipant_meets {record : PackageRecord} {participant : Participant}
    (found : store.record = some record) (header : record.WellFormed platform)
    (trusted : Trusted platform record.participants) (settling : record.phase = .settling) :
    Durable.Meets (restoreParticipant platform env record participant) store
      (fun _ t => t = store) (Unsuccessful env) Anywhere := by
  have sized : Sized platform.recordBytes store.record := found ▸ trusted.sized header
  unfold restoreParticipant
  simp only [Durable.meets_bind]
  refine effect_meets (fun succeed => succeed.lockParticipantAuthorities _) ?_
  simp only [meets_read sized, found, orConflict, Durable.meets_pure,
    meets_ensure, settling, beq_self_eq_true, Bool.and_true, Bool.true_eq_false, false_implies,
    and_true, true_implies]
  refine Durable.meets_lift.mpr ⟨?_, ?_⟩
  · intro settlement _
    exact effect_meets (fun succeed => succeed.validateRestored _ _ _) rfl
  · intro e failure succeed
    obtain ⟨settlement, success⟩ := succeed.restore participant record.generation
    rw [success] at failure
    cases failure

theorem settleParticipant_meets {restoring : Bool}
    {participant : Participant} (found : store.record = some record)
    (header : record.WellFormed platform) (trusted : Trusted platform record.participants)
    (settling : record.phase = .settling) :
    Durable.Meets (settleParticipant platform env restoring record participant) store
      (fun _ t => t = store) (Unsuccessful env) Anywhere := by
  have restored := @restoreParticipant_meets platform env store record participant found header
    trusted settling
  unfold settleParticipant
  cases restoring with
  | false =>
      simp only [Bool.false_eq_true, if_false, Durable.meets_bind]
      exact effect_meets (fun succeed => succeed.cleanup participant)
        (Durable.meets_pure.mpr rfl)
  | true =>
      simp only [if_true, Durable.meets_bind]
      refine Durable.meets_lift.mpr ⟨?_, ?_⟩
      · intro recovery _
        cases recovery with
        | absent =>
            simp only [Durable.meets_bind]
            exact effect_meets (fun succeed => succeed.cleanup participant) restored
        | ready settlement =>
            simp only [Durable.meets_bind]
            exact effect_meets (fun succeed => succeed.validateRestored _ _ _)
              (Durable.meets_pure.mpr rfl)
        | stopAndRetry =>
            simp only [Durable.meets_bind]
            refine effect_meets (fun succeed => succeed.stop participant) ?_
            exact effect_meets (fun succeed => succeed.cleanup participant) restored
      · intro e failure succeed
        obtain ⟨recovery, success⟩ :=
          succeed.recoverPendingRestore participant record.generation
        rw [success] at failure
        cases failure

theorem settleParticipants_meets {restoring : Bool} {record : PackageRecord}
    {done rest : List Participant} (header : record.WellFormed platform)
    (trusted : Trusted platform (done ++ rest)) (settling : record.phase = .settling)
    (absent : .record record.generation ∉ store.temporaries) :
    Durable.Meets (settleParticipants platform env restoring record done rest)
      (store.withRecord { record with participants := done ++ rest })
      (fun qs t => SameParticipants (done ++ rest) qs ∧
        t = store.withRecord { record with participants := qs })
      (Unsuccessful env) Anywhere := by
  induction rest generalizing done with
  | nil =>
      simp only [settleParticipants, List.append_nil]
      exact Durable.meets_pure.mpr ⟨.refl done, rfl⟩
  | cons participant rest ih =>
      simp only [settleParticipants]
      by_cases settled : participant.settlement = .pending
      · simp only [settled, ne_eq, not_true_eq_false, if_false]
        refine (refreshRuntime_meets absent trivial fun _ _ => trivial).seq ?_
        rintro q t ⟨refreshed, rfl⟩
        have step : SameParticipants (done ++ participant :: rest) (done ++ q :: rest) :=
          .middle done rest refreshed.same_participant
        refine (settleParticipant_meets rfl (header.settle _ _ _) (trusted.same step)
          settling).seq ?_
        rintro settlement t rfl
        simp only [Durable.meets_bind]
        refine (meets_write ?_).mpr ⟨trivial, trivial, ?_⟩
        · exact absent
        have settle : SameParticipants (done ++ participant :: rest)
            ((done ++ [{ q with settlement := settlement }]) ++ rest) := by
          rw [List.append_assoc]
          exact step.trans (.middle done rest (.settle q settlement))
        have shift : done ++ { q with settlement := settlement } :: rest =
            (done ++ [{ q with settlement := settlement }]) ++ rest := by
          simp
        rw [PackageStore.withRecord_withRecord, shift]
        refine (ih (trusted.same settle)).weaken ?_ (fun _ _ failed => failed) fun _ stays => stays
        rintro qs u ⟨later, same⟩
        exact ⟨settle.trans later, same⟩
      · simp only [ne_eq, settled, not_false_eq_true, if_true]
        have shift : done ++ participant :: rest = (done ++ [participant]) ++ rest := by simp
        rw [shift] at trusted ⊢
        exact ih trusted

/-- The settled record is finalized once its receipt is written. -/
theorem settle_meets {kind : PackageKind} {restoring : Bool}
    {post : PackageRecord → PackageStore → Prop}
    (unsuccessful : ∀ e t, Unsuccessful env e t → failed e t) (found : store.record = some record)
    (header : record.WellFormed platform) (trusted : Trusted platform record.participants)
    (phase : record.phase = .publishersStopped ∨ record.phase = .settling)
    (absent : .record record.generation ∉ store.temporaries)
    (after : ∀ qs, SameParticipants record.participants qs →
      Durable.Meets
        (writeReceipt platform kind restoring
          { record with phase := .settling, participants := qs })
        (store.withRecord { record with phase := .settling, participants := qs })
        (fun _ t => .record record.generation ∉ t.temporaries ∧
          post { record with phase := .finalizing, participants := qs }
            (t.withRecord { record with phase := .finalizing, participants := qs }))
        failed Anywhere) :
    Durable.Meets (settle platform env kind restoring record) store post failed Anywhere := by
  -- both phases continue from the settling record
  have settling : Durable.Meets
      (settleParticipants platform env restoring { record with phase := .settling } []
        record.participants >>= fun participants => do
        writeReceipt platform kind restoring
          { record with phase := .settling, participants := participants }
        { record with phase := .finalizing, participants := participants }.write
        return { record with phase := .finalizing, participants := participants })
      (store.withRecord { record with phase := .settling }) post failed Anywhere := by
    refine Durable.Meets.seq ((@settleParticipants_meets platform env store restoring
      { record with phase := .settling } [] record.participants (header.settle _ _ _) trusted rfl
      absent).weaken (fun _ _ settled => settled) unsuccessful fun _ stays => stays) ?_
    rintro qs t ⟨same, rfl⟩
    simp only [Durable.meets_bind]
    refine (after qs same).weaken ?_ (fun _ _ failed => failed) fun _ stays => stays
    rintro _ t ⟨kept, final⟩
    refine (meets_write ?_).mpr ⟨trivial, trivial, ?_⟩
    · exact kept
    · exact Durable.meets_pure.mpr final
  unfold settle
  rcases phase with fresh | resumed
  · simp only [fresh, if_true, Durable.meets_bind, Durable.meets_pure]
    refine (meets_write ?_).mpr ⟨trivial, trivial, ?_⟩
    · exact absent
    · simpa only [Durable.meets_bind, Durable.meets_pure] using settling
  · have whole : store.withRecord { record with phase := .settling } = store := by
      rw [← resumed]
      exact PackageStore.withRecord_self found
    rw [whole] at settling
    obtain ⟨disposition, format, package, generation, own, reached, source, target, predecessor,
      participants⟩ := record
    cases resumed
    simpa only [reduceCtorEq, if_false, if_true, Durable.meets_bind, Durable.meets_pure]
      using settling

variable {post : Unit → PackageStore → Prop}

theorem retireController_meets
    (final : record.phase = .finalizing)
    (after : post () { store with controllers := store.controllers.erase record.generation }) :
    Durable.Meets (retireController record) store post failed Anywhere := by
  simp only [retireController, Durable.meets_bind, Durable.meets_read]
  split
  · exact Durable.meets_commit.mpr ⟨trivial, after⟩
  next absent =>
    simp only [Durable.meets_pure]
    rwa [List.erase_of_not_mem absent] at after

theorem finish_meets {kind : PackageKind} {target : String}
    (unsuccessful : ∀ e t, Unsuccessful env e t → failed e t)
    (found : store.record = some record) (header : record.WellFormed platform)
    (trusted : Trusted platform record.participants)
    (valid : record.validFor platform kind target = true)
    (phase : record.phase = .publishersStopped ∨ record.phase = .settling)
    (absent : .record record.generation ∉ store.temporaries)
    (after : ∀ qs, SameParticipants record.participants qs →
      Durable.Meets
        (writeReceipt platform kind (kind != .remove || record.disposition == .rollback)
          { record with phase := .settling, participants := qs })
        (store.withRecord { record with phase := .settling, participants := qs })
        (fun _ t => .record record.generation ∉ t.temporaries ∧
          Durable.Meets
            (close platform kind (kind != .remove || record.disposition == .rollback)
              { record with phase := .finalizing, participants := qs })
            (t.withRecord { record with phase := .finalizing, participants := qs })
            post failed Anywhere)
        failed Anywhere) :
    Durable.Meets (finish platform env kind target) store post failed Anywhere := by
  have sized : Sized platform.recordBytes store.record := found ▸ trusted.sized header
  have begun : (record.phase != .intentRecorded) = true := by
    rcases phase with h | h <;> simp [h]
  unfold finish
  simp only [Durable.meets_bind, meets_read sized, found, orConflict, Durable.meets_pure,
    meets_ensure, valid, begun, Bool.true_eq_false, false_implies, and_true, true_implies]
  refine Durable.meets_lift.mpr ⟨fun _ _ => ?_, fun e failure => unsuccessful e _ ?_⟩
  · exact settle_meets unsuccessful found header trusted phase absent after
  · intro succeed
    rw [succeed.lockParticipantAuthorities] at failure
    cases failure

theorem clear_meets {generation : String}
    (found : store.record = some record)
    (same : record.generation = generation) (header : record.WellFormed platform)
    (trusted : Trusted platform record.participants)
    (after : post () { store with record := none }) :
    Durable.Meets (platform.clear generation) store post failed Anywhere := by
  subst same
  exact (meets_clear found (trusted.sized header)).mpr ⟨trivial, after⟩

/-- An operation that restores its participants and keeps no receipt. -/
theorem finish_restores {kind : PackageKind} {target : String}
    (found : store.record = some record) (header : record.WellFormed platform)
    (trusted : Trusted platform record.participants)
    (valid : record.validFor platform kind target = true)
    (phase : record.phase = .publishersStopped ∨ record.phase = .settling)
    (absent : .record record.generation ∉ store.temporaries)
    (restoring : kind = .upgrade ∨ kind = .remove ∧ record.disposition = .rollback) :
    Durable.Meets (finish platform env kind target) store
      (fun _ t => t = { store with
        record := none, controllers := store.controllers.erase record.generation })
      (Unsuccessful env) Anywhere := by
  have restores : (kind != .remove || record.disposition == .rollback) = true := by
    rcases restoring with rfl | ⟨rfl, rollback⟩
    · rfl
    · simp [rollback]
  have other : kind ≠ .reinstall := by
    rcases restoring with rfl | ⟨rfl, -⟩ <;> nofun
  refine finish_meets (fun _ _ failed => failed) found header trusted valid phase absent ?_
  intro qs same
  simp only [restores, writeReceipt, Bool.true_eq_false, and_false, if_false, other,
    Durable.meets_pure, close, if_true, Durable.meets_bind]
  refine ⟨absent, retireController_meets rfl ?_⟩
  exact clear_meets rfl rfl (header.settle _ _ qs) (trusted.same same) rfl

end Finishing

end DocumentSummarizer.Connect
