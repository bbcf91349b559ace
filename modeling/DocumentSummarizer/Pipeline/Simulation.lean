import DocumentSummarizer.Pipeline.Statements
import DocumentSummarizer.Pipeline.Execution

/-! # The store simulates the lifecycle

Each operation is inverted once: when it succeeds it takes one run through one
labelled step, guarded by the version its caller expected, and leaves the rows of
every other run alone.  Creation is the one operation that takes several steps.
-/

namespace DocumentSummarizer.Pipeline

open Library

/-- Nothing a run's rows are read from changed. -/
structure SameRows (s t : Store) : Prop where
  rows : ∀ runId, t.rowsOf runId = s.rowsOf runId
  documents : DocumentsPresent s → DocumentsPresent t

theorem SameRows.refl (s : Store) : SameRows s s :=
  ⟨fun _ => rfl, id⟩

theorem SameRows.trans {s t u : Store} (left : SameRows s t) (right : SameRows t u) :
    SameRows s u :=
  ⟨fun runId => (right.rows runId).trans (left.rows runId),
    fun present => right.documents (left.documents present)⟩

/-- A step on the rows of `runId` that touches no other run. -/
structure OneStep (codec : Codec) (runId : String) (label : Label) (s t : Store) : Prop where
  step : Step codec runId (s.rowsOf runId) label (t.rowsOf runId)
  frame : ∀ other, other ≠ runId → t.rowsOf other = s.rowsOf other
  documents : DocumentsPresent s → DocumentsPresent t

/-- A move of `runId` from exactly `version`. -/
structure Moved (codec : Codec) (runId : String) (version : Nat) (m : Move) (s t : Store) :
    Prop where
  version : ∃ run, getPipelineRun s runId = some run ∧ run.stateVersion = version
  step : OneStep codec runId (.move m) s t

theorem OneStep.then_same {codec : Codec} {runId label} {s t u : Store}
    (h : OneStep codec runId label s t) (same : SameRows t u) :
    OneStep codec runId label s u where
  step := (same.rows runId).symm ▸ h.step
  frame other ne := (same.rows other).trans (h.frame other ne)
  documents present := same.documents (h.documents present)

theorem Moved.then_same {codec : Codec} {runId version m} {s t u : Store}
    (h : Moved codec runId version m s t) (same : SameRows t u) :
    Moved codec runId version m s u where
  version := h.version
  step := h.step.then_same same

theorem Moved.landed {codec : Codec} {runId version m} {s t : Store}
    (h : Moved codec runId version m s t) {run} (found : getPipelineRun s runId = some run) :
    run.state = m.source ∧ run.stateVersion = version ∧ version + 1 ≤ u32Max ∧
      m.Permitted (s.rowsOf runId) run ∧
      ∃ run', getPipelineRun t runId = some run' ∧ run'.state = m.target ∧
        run'.stateVersion = version + 1 ∧ run'.documentId = run.documentId := by
  obtain ⟨owner, row, version'⟩ := h.version
  obtain rfl : owner = run := Option.some.inj (row.symm.trans found)
  obtain ⟨run', stage, reason, now, eventId, row', -, state, -, room, permitted, landed⟩ :=
    h.step.step.of_move
  obtain rfl : run' = owner := Option.some.inj (row'.symm.trans found)
  refine ⟨state, version', version' ▸ room, permitted, _, congrArg RunRows.row landed, rfl, ?_, rfl⟩
  rw [← version']
  rfl

theorem Moved.rows {codec : Codec} {runId version m} {s t : Store}
    (h : Moved codec runId version m s t) :
    (t.rowsOf runId).artifacts = (m.record codec (s.rowsOf runId)).artifacts ∧
      (t.rowsOf runId).synthesisAttempts =
        (m.record codec (s.rowsOf runId)).synthesisAttempts ∧
      (t.rowsOf runId).verificationAttempts =
        (m.record codec (s.rowsOf runId)).verificationAttempts ∧
      (t.rowsOf runId).handedOff = (m.record codec (s.rowsOf runId)).handedOff := by
  obtain ⟨run, stage, reason, now, eventId, -, -, -, -, -, -, landed⟩ := h.step.step.of_move
  rw [landed]
  exact ⟨rfl, rfl, rfl, rfl⟩

/-- The rows of every run follow the lifecycle, under the labels allowed for the run. -/
structure Follows (codec : Codec) (allowed : String → Label → Prop) (s t : Store) : Prop where
  path : ∀ runId,
    Relation.ReflTransGen (Next codec (allowed runId) runId) (s.rowsOf runId) (t.rowsOf runId)
  documents : DocumentsPresent s → DocumentsPresent t

namespace Follows

variable {codec : Codec} {allowed : String → Label → Prop} {s t u : Store}

theorem trans (left : Follows codec allowed s t) (right : Follows codec allowed t u) :
    Follows codec allowed s u where
  path runId := (left.path runId).trans (right.path runId)
  documents present := right.documents (left.documents present)

theorem of_same (same : SameRows s t) : Follows codec allowed s t where
  path runId := by
    rw [same.rows]
  documents := same.documents

theorem of_oneStep {runId label} (h : OneStep codec runId label s t)
    (ok : allowed runId label) : Follows codec allowed s t where
  path other := by
    by_cases same : other = runId
    · subst same
      exact .single ⟨label, ok, h.step⟩
    · rw [h.frame other same]
  documents := h.documents

theorem of_moved {runId version m} (h : Moved codec runId version m s t)
    (ok : allowed runId (.move m)) : Follows codec allowed s t :=
  of_oneStep h.step ok

end Follows

/-! ## Moves -/

theorem Move.record_row (codec : Codec) (m : Move) (v : RunRows) :
    (m.record codec v).row = v.row := by
  cases m with
  | complete kind artifact warnings => cases kind <;> rfl
  | start | ingest | rewind | finish | fail | requestCancellation | completeCancellation => rfl

theorem Move.record_events (codec : Codec) (m : Move) (v : RunRows) :
    (m.record codec v).events = v.events := by
  cases m with
  | complete kind artifact warnings => cases kind <;> rfl
  | start | ingest | rewind | finish | fail | requestCancellation | completeCancellation => rfl

/-- A transition that follows the writes of move `m` completes the move. -/
theorem moved_of_recorded {codec : Codec} {amb reading runId version stage reason} {m : Move}
    {s recorded t : Store} {result : PipelineRun}
    (rows : recorded.rowsOf runId = m.record codec (s.rowsOf runId))
    (frame : ∀ other, other ≠ runId → recorded.rowsOf other = s.rowsOf other)
    (documents : DocumentsPresent s → DocumentsPresent recorded)
    (permitted : ∀ run, getPipelineRun s runId = some run → run.state = m.source →
      m.Permitted (s.rowsOf runId) run)
    (h : transitionInTx amb reading recorded runId m.source version m.target stage reason m.patch =
      .ok (result, t)) :
    Moved codec runId version m s t := by
  have kept := transitionInTx_documents h
  obtain ⟨run, found, -, state, version', edge, room, -, rfl, rfl⟩ := transitionInTx_ok.mp h
  have key : run.runId = runId := getPipelineRun_runId found
  have rowKey : (patchedRun amb reading run m.target stage m.patch).runId = runId := key
  have eventKey : (recordedEvent amb reading recorded runId run m.target stage reason).runId =
      runId := key
  have row : (recorded.rowsOf runId).row = (s.rowsOf runId).row := by
    rw [rows, Move.record_row]
  have found' : getPipelineRun s runId = some run := row.symm.trans found
  refine ⟨⟨run, found', version'⟩, ?_, ?_, fun present => kept (documents present)⟩
  · rw [rowsOf_recordTransition_self rowKey eventKey, rows]
    have events : recorded.pipelineEvents.filter (fun e => decide (e.runId = runId)) =
        (m.record codec (s.rowsOf runId)).events :=
      congrArg RunRows.events rows
    rw [state] at edge
    have made : Step codec runId (s.rowsOf runId) (.move m) _ :=
      .move m stage reason (amb.now reading) (amb.newV4 reading) found' key state edge room
        (permitted run found' state)
    simpa only [RunRows.advance, recordedEvent, events, patchedRun] using made
  · intro other h
    rw [rowsOf_recordTransition_ne eventKey h, frame other h]

theorem moved_of_transition {codec : Codec} {amb reading runId version stage reason} {m : Move}
    {s t : Store} {result : PipelineRun}
    (plain : m.record codec (s.rowsOf runId) = s.rowsOf runId)
    (permitted : ∀ run, getPipelineRun s runId = some run → run.state = m.source →
      m.Permitted (s.rowsOf runId) run)
    (h : transitionInTx amb reading s runId m.source version m.target stage reason m.patch =
      .ok (result, t)) :
    Moved codec runId version m s t :=
  moved_of_recorded plain.symm (fun _ _ => rfl) id permitted h

/-! ## Stages -/

theorem startStage_ok {codec : Codec} {α : Type} {load : Store → String → Except StoreError α}
    {amb runId version} {stage : PipelineStage} {s t : Store} {result}
    (guarded : ∀ input, load s runId = .ok input → stage = .normalize →
      (s.rowsOf runId).handedOff = false)
    (h : startStage load stage.checkpointBefore stage.active stage amb runId version s =
      .ok (result, t)) :
    Moved codec runId version (.start stage) s t := by
  simp only [startStage, peel_ok, return_ok] at h
  obtain ⟨input, loaded, ⟨run, u⟩, moved, h⟩ := h
  obtain ⟨-, rfl⟩ := Prod.mk.inj h
  exact moved_of_transition (m := .start stage) rfl (fun _ _ _ => guarded input loaded) moved

/-- The artifact an insert records, with what the constraints of its tables refuse. -/
structure Records (codec : Codec) (runId : String) (kind : ArtifactKind) (artifact : kind.Artifact)
    (insert : Store → Except StoreError Store) : Prop where
  rows : ∀ {s t}, insert s = .ok t → ∀ warnings,
    t.rowsOf runId = (Move.complete kind artifact warnings).record codec (s.rowsOf runId)
  frame : ∀ {s t}, insert s = .ok t → ∀ other, other ≠ runId → t.rowsOf other = s.rowsOf other
  documents : ∀ {s t}, insert s = .ok t → DocumentsPresent s → DocumentsPresent t
  fresh : ∀ {s t}, insert s = .ok t → (s.rowsOf runId).artifacts kind = none ∧
    Move.AttemptsAdmit (s.rowsOf runId) kind artifact

theorem completeStage_ok {codec : Codec} {kind : ArtifactKind}
    {insert : Store → Except StoreError Store} {amb runId version warnings} {stage : PipelineStage}
    {artifact : kind.Artifact} {s t : Store} {result}
    (producer : Move.producer kind = some stage)
    (records : Records codec runId kind artifact insert)
    (h : completeStage kind insert stage.active stage.checkpoint stage amb runId version artifact
      warnings s = .ok (result, t)) :
    Moved codec runId version (.complete kind artifact warnings) s t := by
  simp only [completeStage, ensureRunDocumentMatches, peel_ok, okOrElse_eq_ok, refuseIf_eq_ok,
    exists_and_left, exists_const, not_not, ne_eq] at h
  obtain ⟨⟨owner, found, document⟩, u, inserted, moved⟩ := h
  have source : (Move.complete kind artifact warnings).source = stage.active := by
    simp only [Move.source, producer, Option.elim]
  have target : (Move.complete kind artifact warnings).target = stage.checkpoint := by
    simp only [Move.target, producer, Option.elim]
  rw [← source, ← target] at moved
  refine moved_of_recorded (records.rows inserted warnings) (records.frame inserted)
    (records.documents inserted) ?_ moved
  intro run row _
  obtain rfl : owner = run := Option.some.inj (found.symm.trans row)
  exact ⟨Option.isSome_of_mem producer, fun _ => document.symm, records.fresh inserted⟩

theorem records_insertArtifact {codec : Codec} {runId} {kind : ArtifactKind}
    {artifact : kind.Artifact} (single : kind ≠ .synthesized ∧ kind ≠ .verified) :
    Records codec runId kind artifact (insertArtifact codec · kind runId artifact) where
  rows h warnings := by
    obtain ⟨-, -, -, rfl⟩ := insertArtifact_ok.mp h
    rw [rowsOf_setArtifact_self]
    cases kind with
    | synthesized => exact absurd rfl single.1
    | verified => exact absurd rfl single.2
    | parsed | normalized | structured | chunked | analyzed | summary | citation => rfl
  frame h other ne := by
    obtain ⟨-, -, -, rfl⟩ := insertArtifact_ok.mp h
    exact rowsOf_setArtifact_ne ne
  documents h present := by
    obtain ⟨-, -, -, rfl⟩ := insertArtifact_ok.mp h
    exact present
  fresh h := by
    obtain ⟨absent, -, -, -⟩ := insertArtifact_ok.mp h
    refine ⟨AList.lookup_eq_none.mpr absent, ?_⟩
    cases kind with
    | synthesized => exact absurd rfl single.1
    | verified => exact absurd rfl single.2
    | parsed | normalized | structured | chunked | analyzed | summary | citation => trivial

theorem insertSynthesisWithAttempt_ok {codec : Codec} {runId} {synthesized : SynthesizedDocument}
    {s t : Store} (h : insertSynthesisWithAttempt codec runId synthesized s = .ok t) :
    runId ∉ s.artifacts .synthesized ∧ (runId, 0) ∉ s.synthesisAttempts ∧
      (s.setArtifact .synthesized runId (.of codec .synthesized synthesized)).setSynthesisAttempt
        runId 0 (.of codec .synthesized synthesized) = t := by
  simp only [insertSynthesisWithAttempt, insertSynthesizedDocument, peel_ok] at h
  obtain ⟨u, first, second⟩ := h
  obtain ⟨absent, -, -, rfl⟩ := insertArtifact_ok.mp first
  obtain ⟨-, unattempted, -, -, rfl⟩ := insertSynthesisAttempt_ok.mp second
  exact ⟨absent, unattempted, rfl⟩

theorem records_synthesis {codec : Codec} {runId} {synthesized : SynthesizedDocument} :
    Records codec runId .synthesized synthesized
      (insertSynthesisWithAttempt codec runId synthesized) where
  rows h warnings := by
    obtain ⟨-, -, rfl⟩ := insertSynthesisWithAttempt_ok h
    rw [rowsOf_setSynthesisAttempt_self, rowsOf_setArtifact_self]
    rfl
  frame h other ne := by
    obtain ⟨-, -, rfl⟩ := insertSynthesisWithAttempt_ok h
    rw [rowsOf_setSynthesisAttempt_ne ne, rowsOf_setArtifact_ne ne]
  documents h present := by
    obtain ⟨-, -, rfl⟩ := insertSynthesisWithAttempt_ok h
    exact present
  fresh h := by
    obtain ⟨absent, unattempted, -⟩ := insertSynthesisWithAttempt_ok h
    exact ⟨AList.lookup_eq_none.mpr absent, AList.lookup_eq_none.mpr unattempted⟩

theorem mem_synthesisAttempts {s : Store} {runId ordinal} :
    (runId, ordinal) ∈ s.synthesisAttempts ↔
      (s.rowsOf runId).synthesisAttempts ordinal ≠ none := by
  simp only [Store.rowsOf, ne_eq, AList.lookup_eq_none, not_not]

theorem insertVerificationWithAttempt_ok {codec : Codec} {runId ordinal}
    {verified : VerifiedDocument} {s t : Store}
    (h : insertVerificationWithAttempt codec runId ordinal verified s = .ok t) :
    ordinal = verified.synthesisAttemptOrdinal ∧ runId ∉ s.artifacts .verified ∧
      (runId, ordinal) ∉ s.verificationAttempts ∧ (runId, ordinal) ∈ s.synthesisAttempts ∧
      (s.setVerificationAttempt runId ordinal (.of codec .verified verified)).setArtifact .verified
        runId (.of codec .verified verified) = t := by
  simp only [insertVerificationWithAttempt, ensureAttemptOrdinal, insertVerifiedDocument,
    peel_ok, refuseIf_eq_ok, exists_const, not_not, ne_eq] at h
  obtain ⟨same, u, first, second⟩ := h
  obtain ⟨-, unattempted, synthesized, -, rfl⟩ := insertVerificationAttempt_ok.mp first
  obtain ⟨absent, -, -, rfl⟩ := insertArtifact_ok.mp second
  exact ⟨same, absent, unattempted, synthesized, rfl⟩

theorem records_verification {codec : Codec} {runId ordinal} {verified : VerifiedDocument} :
    Records codec runId .verified verified
      (insertVerificationWithAttempt codec runId ordinal verified) where
  rows h warnings := by
    obtain ⟨rfl, -, -, -, rfl⟩ := insertVerificationWithAttempt_ok h
    rw [rowsOf_setArtifact_self, rowsOf_setVerificationAttempt_self]
    rfl
  frame h other ne := by
    obtain ⟨-, -, -, -, rfl⟩ := insertVerificationWithAttempt_ok h
    rw [rowsOf_setArtifact_ne ne, rowsOf_setVerificationAttempt_ne ne]
  documents h present := by
    obtain ⟨-, -, -, -, rfl⟩ := insertVerificationWithAttempt_ok h
    exact present
  fresh h := by
    obtain ⟨rfl, absent, unattempted, synthesized, -⟩ := insertVerificationWithAttempt_ok h
    exact ⟨AList.lookup_eq_none.mpr absent, AList.lookup_eq_none.mpr unattempted,
      mem_synthesisAttempts.mp synthesized⟩

theorem startNormalizing_ok {codec : Codec} {amb runId version s t result}
    (h : startNormalizing amb runId version s = .ok (result, t)) :
    Moved codec runId version (.start .normalize) s t := by
  refine startStage_ok (fun input loaded _ => ?_) h
  simp only [loadParsedUnlessHandedOff, peel_ok, refuseIf_eq_ok, exists_const,
    Bool.not_eq_true] at loaded
  exact loaded.1

theorem recordVerificationAttempt_ok {codec : Codec} {runId version ordinal verified s t}
    (h : recordVerificationAttempt codec runId version ordinal verified s = .ok ((), t)) :
    (∃ run, getPipelineRun s runId = some run ∧ run.stateVersion = version) ∧
      OneStep codec runId (.attempt ordinal) s t := by
  simp only [recordVerificationAttempt, ensureRunStateVersion, ensureRunDocumentMatches,
    ensureAttemptOrdinal, peel_ok, okOrElse_eq_ok, refuseIf_eq_ok, return_ok, exists_const,
    not_not, ne_eq, Prod.mk.injEq, true_and] at h
  obtain ⟨⟨run, found, state, version'⟩, -, -, u, inserted, rfl⟩ := h
  obtain ⟨-, absent, synthesized, -, rfl⟩ := insertVerificationAttempt_ok.mp inserted
  refine ⟨⟨run, found, version'⟩, ?_, fun other ne => rowsOf_setVerificationAttempt_ne ne, id⟩
  rw [rowsOf_setVerificationAttempt_self]
  exact .attempt ordinal _ found state (AList.lookup_eq_none.mpr absent)
    (mem_synthesisAttempts.mp synthesized)

theorem completionOutcome_target (summary : SummaryArtifact) (citations : CitationArtifact) :
    (completionOutcome summary.warnings).1 = (Move.finish summary citations).target := by
  simp only [completionOutcome, Move.target]
  split <;> rfl

theorem completeSummary_ok {codec : Codec} {amb runId version summary citations s t result}
    (h : completeSummary codec amb runId version summary citations s = .ok (result, t)) :
    Moved codec runId version (.finish summary citations) s t := by
  simp only [completeSummary, ensureRunDocumentMatches, insertSummaryArtifact,
    insertCitationArtifact, peel_ok, okOrElse_eq_ok, refuseIf_eq_ok, exists_and_left,
    exists_const, not_not, ne_eq] at h
  obtain ⟨⟨run, found, summaryOwner⟩, ⟨run', found', citationOwner⟩, -, u, ⟨-, first⟩, w,
    ⟨-, second⟩, moved⟩ := h
  obtain rfl : run = run' := Option.some.inj (found.symm.trans found')
  obtain ⟨freshSummary, -, -, rfl⟩ := insertArtifact_ok.mp first
  obtain ⟨freshCitation, -, -, rfl⟩ := insertArtifact_ok.mp second
  rw [completionOutcome_target summary citations] at moved
  refine moved_of_recorded ?_ ?_ ?_ ?_ moved
  · rw [rowsOf_setArtifact_self, rowsOf_setArtifact_self]
    rfl
  · intro other ne
    rw [rowsOf_setArtifact_ne ne, rowsOf_setArtifact_ne ne]
  · exact id
  · intro owner row _
    obtain rfl : run = owner := Option.some.inj (found.symm.trans row)
    have citationTable : (s.setArtifact .summary runId
        (.of codec .summary summary)).artifacts .citation = s.artifacts .citation := by
      have other : ArtifactKind.citation ≠ .summary := by decide
      simp only [Store.setArtifact, Function.update_of_ne other]
    rw [citationTable] at freshCitation
    exact ⟨summaryOwner.symm, citationOwner.symm, AList.lookup_eq_none.mpr freshSummary,
      AList.lookup_eq_none.mpr freshCitation⟩

/-! ## Failing and cancelling -/

theorem moved_fail {codec : Codec} {amb reading runId expected version stage failure} {s t : Store}
    {result} (active : expected.canRequestCancellation = true)
    (h : transitionInTx amb reading s runId expected version .failed stage (some failure.code)
      { failure := some failure } = .ok (result, t)) :
    Moved codec runId version (.fail expected failure) s t :=
  moved_of_transition (m := .fail expected failure) rfl (fun _ _ _ => active) h

theorem moved_completeCancellation {codec : Codec} {amb reading runId version stage reason}
    {s t : Store} {run result} (found : getPipelineRun s runId = some run)
    (requested : run.state = .cancelling → run.stateVersion = version →
      run.cancellationRequested = true)
    (h : transitionInTx amb reading s runId .cancelling version .cancelled stage reason
      { cancellationRequested := some true } = .ok (result, t)) :
    Moved codec runId version .completeCancellation s t := by
  obtain ⟨run', found', -, -, version', -⟩ := transitionInTx_ok.mp h
  obtain rfl : run = run' := Option.some.inj (found.symm.trans found')
  refine moved_of_transition (m := .completeCancellation) rfl ?_ h
  intro owner row state
  obtain rfl : run = owner := Option.some.inj (found.symm.trans row)
  exact requested state version'

theorem failDownstreamStage_ok {codec : Codec} {amb runId expected version stage failure s t result}
    (active : expected.canRequestCancellation = true)
    (h : failDownstreamStage expected stage amb runId version failure s = .ok (result, t)) :
    Moved codec runId version (.fail expected failure) s t :=
  moved_fail active h

theorem requestCancellation_ok (codec : Codec) {amb runId version s t result}
    (h : requestCancellation amb runId version s = .ok (result, t)) :
    ∃ source, Moved codec runId version (.requestCancellation source) s t := by
  simp only [requestCancellation, peel_ok, okOrElse_eq_ok, refuseIf_eq_ok, exists_const,
    Bool.not_eq_false] at h
  obtain ⟨run, found, active, moved⟩ := h
  exact ⟨run.state, moved_of_transition (m := .requestCancellation run.state) rfl
    (fun _ _ _ => active) moved⟩

theorem completeCancellation_ok {codec : Codec} {amb runId version s t result}
    (h : completeCancellation amb runId version s = .ok (result, t)) :
    Moved codec runId version .completeCancellation s t := by
  simp only [completeCancellation, peel_ok, okOrElse_eq_ok, refuseIf_eq_ok, exists_const,
    not_or, Bool.not_eq_false] at h
  obtain ⟨run, found, ⟨-, requested⟩, moved⟩ := h
  exact moved_completeCancellation found (fun _ _ => requested) moved

/-- The expected version decides, unless the run is being cancelled. -/
theorem failBackgroundExecution_ok (codec : Codec) {amb runId expected version failure s t result}
    (h : failBackgroundExecution amb runId expected version failure s = .ok (result, t)) :
    ∃ run, getPipelineRun s runId = some run ∧
      (run.state = .cancelling ∧ Moved codec runId run.stateVersion .completeCancellation s t ∨
        run.state ≠ .cancelling ∧ Moved codec runId version (.fail expected failure) s t) := by
  simp only [failBackgroundExecution, peel_ok, okOrElse_eq_ok] at h
  obtain ⟨run, found, h⟩ := h
  refine ⟨run, found, ?_⟩
  split at h
  · next cancelling =>
    simp only [peel_ok, refuseIf_eq_ok, exists_const, Bool.not_eq_false] at h
    exact .inl ⟨cancelling, moved_completeCancellation found (fun _ _ => h.1) h.2⟩
  · next running =>
    simp only [peel_ok, refuseIf_eq_ok, exists_const, Bool.not_eq_false] at h
    exact .inr ⟨running, moved_fail h.1 h.2⟩

theorem canRequestCancellation_of_active {state : PipelineState} {stage}
    (h : state.activeStage = some stage) : state.canRequestCancellation = true := by
  simp only [PipelineState.canRequestCancellation, h, Option.isSome_some, Bool.true_or]

/-- The move that reconciles one interrupted run. -/
def InterruptedRunTransition.move (candidate : InterruptedRunTransition) : Move :=
  match candidate.action with
  | .fail failure => .fail candidate.expectedState failure
  | .completeCancellation => .completeCancellation

theorem reconcileInterruptedRun_ok {codec : Codec} {amb reading candidate s t result}
    (h : reconcileInterruptedRun amb reading candidate s = .ok (result, t)) :
    Moved codec candidate.runId candidate.expectedVersion candidate.move s t := by
  obtain ⟨runId, expected, version, action⟩ := candidate
  cases action with
  | fail failure =>
      simp only [reconcileInterruptedRun, peel_ok, okOrElse_eq_ok, refuseIf_eq_ok,
        exists_const] at h
      obtain ⟨stage, active, -, moved⟩ := h
      exact moved_fail (canRequestCancellation_of_active active) moved
  | completeCancellation =>
      simp only [reconcileInterruptedRun, peel_ok, okOrElse_eq_ok, refuseIf_eq_ok,
        exists_const, not_not, ne_eq] at h
      obtain ⟨rfl, run, found, requested, moved⟩ := h
      refine moved_completeCancellation found (fun state version' => ?_) moved
      exact eq_true_of_ne_false fun unrequested => requested ⟨state, version', unrequested⟩

theorem reconcileInterruptedRunsInTransaction_ok {codec : Codec} {amb}
    {interrupted : List InterruptedRunTransition} {allowed : String → Label → Prop}
    (ok : ∀ candidate ∈ interrupted, allowed candidate.runId (.move candidate.move)) :
    ∀ {reading s t result},
      reconcileInterruptedRunsInTransaction amb reading interrupted s = .ok (result, t) →
        Follows codec allowed s t := by
  induction interrupted with
  | nil =>
      intro reading s t result h
      obtain ⟨-, rfl⟩ := Prod.mk.inj (Except.ok.inj h)
      exact .of_same (.refl s)
  | cons candidate rest ih =>
      intro reading s t result h
      simp only [reconcileInterruptedRunsInTransaction, peel_ok, return_ok] at h
      obtain ⟨⟨run, u⟩, first, ⟨runs, w⟩, others, h⟩ := h
      obtain ⟨-, rfl⟩ := Prod.mk.inj h
      have here := ok candidate List.mem_cons_self
      have there : Follows codec allowed u w :=
        ih (fun other mem => ok other (List.mem_cons_of_mem _ mem)) others
      exact (Follows.of_moved (reconcileInterruptedRun_ok first) here).trans there

/-! ## Creating a run -/

/-- The store after a statement that may give a run a profile where it has none. -/
inductive GivesProfile (runId : String) (s : Store) : Store → Prop where
  | kept : GivesProfile runId s s
  | model (snapshot : ModelProfileSnapshot) (absent : runId ∉ s.modelProfiles) :
      GivesProfile runId s { s with modelProfiles := s.modelProfiles.insert runId snapshot }
  | summary (profile : SummaryProfile) (absent : runId ∉ s.summaryProfiles) :
      GivesProfile runId s { s with summaryProfiles := s.summaryProfiles.insert runId profile }

theorem ensureRunModelProfile_gives {s t : Store} {runId snapshot}
    (h : ensureRunModelProfile s runId snapshot = .ok t) : GivesProfile runId s t := by
  simp only [ensureRunModelProfile] at h
  split at h
  · split at h <;> cases h
    exact .kept
  · cases h
  · next absent =>
      split at h <;> cases h
      exact .model _ (AList.lookup_eq_none.mp absent)
  · cases h
    exact .kept

theorem ensureRunSummaryProfile_gives {s t : Store} {runId profile}
    (h : ensureRunSummaryProfile s runId profile = .ok t) : GivesProfile runId s t := by
  simp only [ensureRunSummaryProfile] at h
  split at h
  · split at h <;> cases h
    exact .kept
  · next absent =>
      split at h <;> cases h
      exact .summary profile (AList.lookup_eq_none.mp absent)

theorem copyModelProfile_gives {s t : Store} {runId source copied}
    (h : copyModelProfile s runId source = .ok (copied, t)) : GivesProfile runId s t := by
  simp only [copyModelProfile] at h
  split at h
  · cases h
    exact .kept
  · simp only [peel_ok, refuseIf_eq_ok, return_ok, exists_const] at h
    obtain ⟨absent, -, h⟩ := h
    cases h
    exact .model _ absent

theorem copySummaryProfile_gives {s t : Store} {runId source copied}
    (h : copySummaryProfile s runId source = .ok (copied, t)) : GivesProfile runId s t := by
  simp only [copySummaryProfile] at h
  split at h
  · cases h
    exact .kept
  · simp only [peel_ok, refuseIf_eq_ok, return_ok, exists_const] at h
    obtain ⟨absent, -, h⟩ := h
    cases h
    exact .summary _ absent

theorem GivesProfile.same {s t : Store} {owner : String} (gives : GivesProfile owner s t) :
    SameRows s t := by
  cases gives <;> exact ⟨fun _ => rfl, id⟩

theorem insertDocument_same {s t : Store} {document} (h : insertDocument s document = .ok t) :
    SameRows s t := by
  obtain ⟨-, -, rfl⟩ := insertDocument_ok.mp h
  refine ⟨fun _ => rfl, fun present runId run found => ?_⟩
  exact (AList.mem_insert _).mpr (.inr (present runId run found))

theorem created_of_inserts {codec : Codec} {s u t : Store} {run event}
    (received : run.state = .received) (version : run.stateVersion = 1)
    (owner : event.runId = run.runId) (sequenceNo : event.sequenceNo = 0)
    (previous : event.previousState = none) (next : event.nextState = .received)
    (first : insertPipelineRun s run = .ok u) (second : insertPipelineEvent u event = .ok t) :
    OneStep codec run.runId (.create run) s t := by
  obtain ⟨-, absent, -, document, rfl⟩ := insertPipelineRun_ok.mp first
  obtain ⟨-, rfl⟩ := insertPipelineEvent_ok.mp second
  refine ⟨?_, ?_, fun present => documentsPresent_setRun rfl document present⟩
  · have rows := rowsOf_recordTransition_self (s := s) (rfl : run.runId = run.runId) owner
    have made : Step codec run.runId (s.rowsOf run.runId) (.create run) _ :=
      .create (getPipelineRun_eq_none.mpr absent) rfl received version owner sequenceNo previous
        next
    rw [← rows] at made
    exact made
  · intro other ne
    exact @rowsOf_recordTransition_ne s run.runId other run event owner ne

/-- Run `run` was created between the two stores; no other run changed. -/
structure Creation (codec : Codec) (run : PipelineRun) (s t : Store) : Prop where
  absent : getPipelineRun s run.runId = none
  path : Relation.ReflTransGen (Next codec (Onboarding run) run.runId) (s.rowsOf run.runId)
    (t.rowsOf run.runId)
  frame : ∀ other, other ≠ run.runId → t.rowsOf other = s.rowsOf other
  documents : DocumentsPresent s → DocumentsPresent t

namespace Creation

variable {codec : Codec} {run : PipelineRun} {s t u : Store}

theorem follows {allowed : String → Label → Prop} (h : Creation codec run s t)
    (ok : ∀ label, Onboarding run label → allowed run.runId label) :
    Follows codec allowed s t where
  path other := by
    by_cases same : other = run.runId
    · subst same
      exact Next.path_mono ok h.path
    · rw [h.frame other same]
  documents := h.documents

theorem of_create (h : OneStep codec run.runId (.create run) s t) : Creation codec run s t where
  absent := h.step.absent_of_create
  path := .single ⟨_, .create, h.step⟩
  frame := h.frame
  documents := h.documents

theorem then_moved {version m} (h : Creation codec run s t)
    (moved : Moved codec run.runId version m t u) (onboarding : Onboarding run (.move m)) :
    Creation codec run s u where
  absent := h.absent
  path := h.path.tail ⟨_, onboarding, moved.step.step⟩
  frame other ne := (moved.step.frame other ne).trans (h.frame other ne)
  documents present := moved.step.documents (h.documents present)

theorem then_same (h : Creation codec run s t) (same : SameRows t u) :
    Creation codec run s u where
  absent := h.absent
  path := (same.rows run.runId).symm ▸ h.path
  frame other ne := (same.rows other).trans (h.frame other ne)
  documents present := same.documents (h.documents present)

theorem of_same_then (same : SameRows s t) (h : Creation codec run t u) :
    Creation codec run s u where
  absent := (congrArg RunRows.row (same.rows run.runId)).symm.trans h.absent
  path := same.rows run.runId ▸ h.path
  frame other ne := (h.frame other ne).trans (same.rows other)
  documents present := h.documents (same.documents present)

end Creation

/-- A run entering with version `1` is ingested by the transaction that creates it. -/
theorem persistReceivedRunToIngested_ok (codec : Codec) {amb s t run creationReason reason result}
    (received : run.state = .received) (version : run.stateVersion = 1)
    (h : persistReceivedRunToIngested amb s run creationReason reason = .ok (result, t)) :
    Creation codec run s t ∧ result.runId = run.runId := by
  simp only [persistReceivedRunToIngested, peel_ok] at h
  obtain ⟨u, row, w, event, ⟨ingesting, x⟩, started, finished⟩ := h
  have created : OneStep codec run.runId (.create run) s w :=
    created_of_inserts received version rfl rfl rfl rfl row event
  have start : Moved codec run.runId 1 (.start .ingest) w x :=
    moved_of_transition (m := .start .ingest) rfl (fun _ _ _ other => by cases other) started
  have ingest : Moved codec run.runId ingesting.stateVersion .ingest x t :=
    moved_of_transition (m := .ingest) rfl (fun _ _ _ => trivial) finished
  exact ⟨((Creation.of_create created).then_moved start .startIngest).then_moved ingest .ingest,
    transitionInTx_runId finished⟩

theorem persistIngestionInTransaction_ok (codec : Codec) {amb s t document run profile result}
    (h : persistIngestionInTransaction amb s document run profile = .ok (result, t)) :
    Creation codec run s t ∧ result.runId = run.runId := by
  simp only [persistIngestionInTransaction, peel_ok, refuseIf_eq_ok, return_ok, exists_const,
    not_or, not_not, ne_eq] at h
  obtain ⟨⟨-, received, version⟩, u, inserted, ⟨ingested, w⟩, persisted, x, profiled, h⟩ := h
  obtain ⟨rfl, rfl⟩ := Prod.mk.inj h
  obtain ⟨creation, key⟩ := persistReceivedRunToIngested_ok codec received version persisted
  have kept := (ensureRunSummaryProfile_gives profiled).same
  exact ⟨(Creation.of_same_then (insertDocument_same inserted) creation).then_same kept, key⟩

theorem persistIngestionWithProfiles_ok {codec : Codec} {amb document run snapshot profile s t}
    {result} (h : persistIngestionWithProfiles amb document run snapshot profile s =
      .ok (result, t)) :
    Creation codec run s t := by
  simp only [persistIngestionWithProfiles, peel_ok, return_ok] at h
  obtain ⟨-, -, ⟨ingested, u⟩, persisted, w, profiled, h⟩ := h
  obtain ⟨-, rfl⟩ := Prod.mk.inj h
  obtain ⟨creation, -⟩ := persistIngestionInTransaction_ok codec persisted
  exact creation.then_same (ensureRunModelProfile_gives profiled).same

theorem persistCorrectedDocument_ok {codec : Codec} {amb document run parsed source s t result}
    (h : persistCorrectedDocument codec amb document run parsed source s = .ok (result, t)) :
    Creation codec run s t := by
  simp only [persistCorrectedDocument, peel_ok] at h
  obtain ⟨profile, -, ⟨ingested, u⟩, persisted, w, profiled, ⟨parsing, x⟩, started, y, inserted,
    completed⟩ := h
  obtain ⟨creation, -⟩ := persistIngestionInTransaction_ok codec persisted
  have start : Moved codec run.runId ingested.stateVersion (.start .parse) w x :=
    moved_of_transition (m := .start .parse) rfl (fun _ _ _ other => by cases other) started
  have records : Records codec run.runId .parsed parsed
      (insertParsedDocument codec · run.runId parsed) :=
    records_insertArtifact (by decide)
  have complete : Moved codec run.runId parsing.stateVersion (.complete .parsed parsed _) x t :=
    moved_of_recorded (records.rows inserted _) (records.frame inserted)
      (records.documents inserted) (fun _ _ _ => ⟨rfl, fun other => absurd rfl other, records.fresh inserted⟩) completed
  have started := (creation.then_same (ensureRunModelProfile_gives profiled).same).then_moved start
    .startParse
  exact started.then_moved complete .completeParse

theorem insertRetryLineage_same {s t : Store} {lineage}
    (h : insertRetryLineage s lineage = .ok t) :
    SameRows s t := by
  simp only [insertRetryLineage, peel_ok, refuseIf_eq_ok, return_ok, exists_const] at h
  obtain ⟨-, -, -, -, rfl⟩ := h
  exact ⟨fun _ => rfl, id⟩

theorem createRetryRun_ok {codec : Codec} {amb source version retryRun s t result}
    (h : createRetryRun amb source version retryRun s = .ok (result, t)) :
    Creation codec retryRun s t := by
  simp only [createRetryRun, peel_ok, refuseIf_eq_ok, return_ok, exists_const, okOrElse_eq_ok,
    not_or, not_not, ne_eq] at h
  obtain ⟨⟨sourceRun, checkpoint⟩, -, ⟨-, received, version', -⟩, document, -, ⟨ingested, u⟩,
    persisted, ⟨parsing, w⟩, started, x, inserted, ⟨_, y⟩, models, ⟨copied, z⟩, summaries, -, h⟩ := h
  obtain ⟨-, rfl⟩ := Prod.mk.inj h
  obtain ⟨creation, -⟩ := persistReceivedRunToIngested_ok codec received version' persisted
  have start : Moved codec retryRun.runId ingested.stateVersion (.start .parse) u w :=
    moved_of_transition (m := .start .parse) rfl (fun _ _ _ other => by cases other) started
  have linked := (creation.then_moved start .startParse).then_same (insertRetryLineage_same inserted)
  exact (linked.then_same (copyModelProfile_gives models).same).then_same
    (copySummaryProfile_gives summaries).same

/-! ## OCR handoffs -/

theorem updateOcrHandoffs_same {codec : Codec} {s t : Store} {selected change changed}
    (h : updateOcrHandoffs codec s selected change = .ok (changed, t))
    (roots : ∀ x : OcrHandoff, (change x).rootRunId = x.rootRunId) :
    SameRows s t := by
  simp only [updateOcrHandoffs, peel_ok, refuseIf_eq_ok, return_ok, exists_const] at h
  obtain ⟨-, -, h⟩ := h
  obtain ⟨-, rfl⟩ := Prod.mk.inj h
  have kept : ∀ x : OcrHandoff,
      (if selected x = true then change x else x).rootRunId = x.rootRunId := by
    intro x
    split
    · exact roots x
    · rfl
  refine ⟨fun runId => ?_, id⟩
  simp only [Store.rowsOf, List.any_map, Function.comp_def, kept]
  rfl

theorem prepareOcrHandoff_ok {codec : Codec} {admission s t result}
    (h : prepareOcrHandoff codec admission s = .ok (result, t)) :
    SameRows s t ∨
      OneStep codec admission.rootRunId .handOff s t := by
  simp only [prepareOcrHandoff] at h
  split at h
  · obtain ⟨-, rfl⟩ := Prod.mk.inj (Except.ok.inj h)
    exact .inl (.refl s)
  · simp only [insertOcrHandoff, peel_ok, okOrElse_eq_ok, refuseIf_eq_ok, return_ok, exists_const,
      not_or, not_not, ne_eq] at h
    obtain ⟨root, found, document, -, parsed, -, ⟨state, -⟩, u, ⟨-, -, -, -, rfl⟩, admitted, -,
      h⟩ := h
    obtain ⟨-, rfl⟩ := Prod.mk.inj h
    refine .inr ⟨?_, ?_, id⟩
    · have rows : { s with ocrHandoffs := s.ocrHandoffs ++ [preparedHandoff codec admission] :
          Store }.rowsOf admission.rootRunId =
          { s.rowsOf admission.rootRunId with handedOff := true } := by
        simp only [Store.rowsOf, List.any_append, List.any_cons, preparedHandoff, decide_true,
          Bool.true_or, Bool.or_true]
        rfl
      rw [rows]
      exact .handOff found state
    · intro other ne
      have unrelated : decide (admission.rootRunId = other) = false :=
        decide_eq_false (Ne.symm ne)
      simp only [Store.rowsOf, List.any_append, List.any_cons, List.any_nil, preparedHandoff,
        unrelated, Bool.or_false]
      rfl

theorem transitionOcrHandoff_same {codec : Codec} {handoffId expected next status s t result}
    (h : transitionOcrHandoff codec handoffId expected next status s = .ok (result, t)) :
    SameRows s t := by
  simp only [transitionOcrHandoff, peel_ok, return_ok] at h
  obtain ⟨⟨changed, u⟩, updated, h⟩ := h
  obtain ⟨-, rfl⟩ := Prod.mk.inj h
  exact updateOcrHandoffs_same updated (fun _ => rfl)

theorem storeOcrOutputs_same {codec : Codec} {handoffId expected output s t result}
    (h : storeOcrOutputs codec handoffId expected output s = .ok (result, t)) :
    SameRows s t := by
  simp only [storeOcrOutputs, peel_ok, return_ok] at h
  obtain ⟨⟨changed, u⟩, updated, h⟩ := h
  obtain ⟨-, rfl⟩ := Prod.mk.inj h
  exact updateOcrHandoffs_same updated (fun _ => rfl)

theorem failOcrHandoff_same {codec : Codec} {handoffId expected code message retryable s t result}
    (h : failOcrHandoff codec handoffId expected code message retryable s = .ok (result, t)) :
    SameRows s t := by
  simp only [failOcrHandoff, peel_ok, return_ok] at h
  obtain ⟨⟨changed, u⟩, updated, h⟩ := h
  obtain ⟨-, rfl⟩ := Prod.mk.inj h
  exact updateOcrHandoffs_same updated (fun _ => rfl)

theorem markOcrHandoffCompletedForChild_same {codec : Codec} {childRunId s t result}
    (h : markOcrHandoffCompletedForChild codec childRunId s = .ok (result, t)) :
    SameRows s t := by
  simp only [markOcrHandoffCompletedForChild, peel_ok] at h
  obtain ⟨run, -, h⟩ := h
  split at h
  · obtain ⟨-, rfl⟩ := Prod.mk.inj (return_ok.mp h)
    exact ⟨fun _ => rfl, id⟩
  · simp only [peel_ok, return_ok] at h
    obtain ⟨⟨changed, u⟩, updated, h⟩ := h
    obtain ⟨-, rfl⟩ := Prod.mk.inj h
    exact updateOcrHandoffs_same updated (fun _ => rfl)

theorem insertOcrLineage_same {s t : Store} {handoff} (h : insertOcrLineage s handoff = .ok t) :
    SameRows s t := by
  simp only [insertOcrLineage, peel_ok, okOrElse_eq_ok, refuseIf_eq_ok, return_ok,
    exists_const] at h
  obtain ⟨_, -, -, -, -, rfl⟩ := h
  exact ⟨fun _ => rfl, id⟩

/-- Admission creates the child and then fails the parsed root. -/
theorem admitOcrChild_ok {codec : Codec} {amb handoff document run s t result}
    (h : admitOcrChild codec amb handoff document run s = .ok (result, t)) :
    SameRows s t ∨
      ∃ u version failure, Creation codec run s u ∧
        Moved codec handoff.rootRunId version (.fail .parsed failure) u t := by
  simp only [admitOcrChild, peel_ok, okOrElse_eq_ok] at h
  obtain ⟨current, -, pdf, -, h⟩ := h
  split at h
  · simp only [peel_ok, okOrElse_eq_ok, return_ok] at h
    obtain ⟨child, -, h⟩ := h
    obtain ⟨-, rfl⟩ := Prod.mk.inj h
    exact .inl (.refl s)
  · simp only [admitNewOcrChild, peel_ok, okOrElse_eq_ok, refuseIf_eq_ok, return_ok,
      exists_const] at h
    obtain ⟨-, profile, -, ⟨ingested, u⟩, persisted, ⟨copied, w⟩, copy, -, root, found, ⟨_, x⟩,
      failed, y, lineage, ⟨changed, z⟩, updated, -, h⟩ := h
    obtain ⟨-, rfl⟩ := Prod.mk.inj h
    obtain ⟨creation, -⟩ := persistIngestionInTransaction_ok codec persisted
    rw [getPipelineRun_runId found] at failed
    have fails : Moved codec handoff.rootRunId root.stateVersion (.fail .parsed _) w x :=
      moved_fail rfl failed
    have kept : SameRows x z :=
      (insertOcrLineage_same lineage).trans (updateOcrHandoffs_same updated (fun _ => rfl))
    exact .inr ⟨w, _, _, creation.then_same (copyModelProfile_gives copy).same, fails.then_same kept⟩

/-- The only edges a rewind takes lead from an active stage to the checkpoint before it. -/
theorem rewindCheckpoint_some {state : PipelineState} {target : PipelineState × PipelineStage}
    (h : rewindCheckpoint state = some target) :
    ∃ stage : PipelineStage, stage ≠ .ingest ∧ state = stage.active ∧
      target.1 = stage.checkpointBefore := by
  cases state <;> cases h
  · exact ⟨.parse, nofun, rfl, rfl⟩
  · exact ⟨.normalize, nofun, rfl, rfl⟩
  · exact ⟨.structure, nofun, rfl, rfl⟩
  · exact ⟨.chunk, nofun, rfl, rfl⟩
  · exact ⟨.analyze, nofun, rfl, rfl⟩
  · exact ⟨.synthesize, nofun, rfl, rfl⟩
  · exact ⟨.verify, nofun, rfl, rfl⟩

theorem rewindInterruptedOcrChild_ok (codec : Codec) {amb childRunId s t result}
    (h : rewindInterruptedOcrChild amb childRunId s = .ok (result, t)) :
    (t = s ∧ ∃ run, getPipelineRun s childRunId = some run ∧ rewindCheckpoint run.state = none) ∨
      ∃ run stage, getPipelineRun s childRunId = some run ∧ run.state = stage.active ∧
        Moved codec childRunId run.stateVersion (.rewind stage) s t := by
  simp only [rewindInterruptedOcrChild, peel_ok, okOrElse_eq_ok, refuseIf_eq_ok,
    exists_const] at h
  obtain ⟨-, run, found, awake, h⟩ := h
  cases checkpoint : rewindCheckpoint run.state with
  | none =>
      simp only [checkpoint, return_ok] at h
      obtain ⟨-, rfl⟩ := Prod.mk.inj h
      exact .inl ⟨rfl, run, found, checkpoint⟩
  | some target =>
      obtain ⟨stage, ne, active, back⟩ := rewindCheckpoint_some checkpoint
      simp only [checkpoint] at h
      rw [active, back] at h
      exact .inr ⟨run, stage, found, active,
        moved_of_transition (m := .rewind stage) rfl (fun _ _ _ => ne) h⟩

/-! ## Every operation -/

/-- The labels an operation may take a run through. -/
def Operation.Allows (runId : String) (label : Label) : Operation → Prop
  | .persistIngestion _ run _ _ | .persistCorrectedDocument _ run _ _ | .createRetryRun _ _ run =>
    runId = run.runId ∧ Onboarding run label
  | .startParsing r _ => runId = r ∧ label = .move (.start .parse)
  | .startNormalizing r _ => runId = r ∧ label = .move (.start .normalize)
  | .startStructuring r _ => runId = r ∧ label = .move (.start .structure)
  | .startChunking r _ => runId = r ∧ label = .move (.start .chunk)
  | .startAnalysis r _ => runId = r ∧ label = .move (.start .analyze)
  | .startSynthesis r _ => runId = r ∧ label = .move (.start .synthesize)
  | .startVerification r _ => runId = r ∧ label = .move (.start .verify)
  | .completeParsing r _ artifact warnings =>
    runId = r ∧ label = .move (.complete .parsed artifact warnings)
  | .completeNormalization r _ artifact warnings =>
    runId = r ∧ label = .move (.complete .normalized artifact warnings)
  | .completeStructuring r _ artifact warnings =>
    runId = r ∧ label = .move (.complete .structured artifact warnings)
  | .completeChunking r _ artifact warnings =>
    runId = r ∧ label = .move (.complete .chunked artifact warnings)
  | .completeAnalysis r _ artifact warnings =>
    runId = r ∧ label = .move (.complete .analyzed artifact warnings)
  | .completeSynthesis r _ artifact warnings =>
    runId = r ∧ label = .move (.complete .synthesized artifact warnings)
  | .completeVerification r _ _ artifact warnings =>
    runId = r ∧ label = .move (.complete .verified artifact warnings)
  | .recordVerificationAttempt r _ ordinal _ => runId = r ∧ label = .attempt ordinal
  | .completeSummary r _ summary citations => runId = r ∧ label = .move (.finish summary citations)
  | .failParsing r _ failure => runId = r ∧ label = .move (.fail .parsing failure)
  | .failNormalization r _ failure => runId = r ∧ label = .move (.fail .normalizing failure)
  | .failStructuring r _ failure => runId = r ∧ label = .move (.fail .structuring failure)
  | .failChunking r _ failure => runId = r ∧ label = .move (.fail .chunking failure)
  | .failAnalysis r _ failure => runId = r ∧ label = .move (.fail .analyzing failure)
  | .failSynthesis r _ failure => runId = r ∧ label = .move (.fail .synthesizing failure)
  | .failVerification r _ failure => runId = r ∧ label = .move (.fail .verifying failure)
  | .failSummary r _ failure => runId = r ∧ label = .move (.fail .verified failure)
  | .requestCancellation r _ =>
    runId = r ∧ ∃ source, label = .move (.requestCancellation source)
  | .completeCancellation r _ => runId = r ∧ label = .move .completeCancellation
  | .failBackgroundExecution r expected _ failure =>
    runId = r ∧ (label = .move .completeCancellation ∨ label = .move (.fail expected failure))
  | .reconcileInterruptedRunsInTransaction interrupted =>
    ∃ candidate ∈ interrupted, runId = candidate.runId ∧ label = .move candidate.move
  | .reconcileInterruptedRuns =>
    label = .move .completeCancellation ∨ ∃ source failure, label = .move (.fail source failure)
  | .prepareOcrHandoff admission => runId = admission.rootRunId ∧ label = .handOff
  | .admitOcrChild handoff _ run =>
    (runId = run.runId ∧ Onboarding run label) ∨
      (runId = handoff.rootRunId ∧ ∃ failure, label = .move (.fail .parsed failure))
  | .rewindInterruptedOcrChild r => runId = r ∧ ∃ stage, label = .move (.rewind stage)
  | .ensureRunModelProfile _ _ | .ensureRunSummaryProfile _ _ | .transitionOcrHandoff _ _ _ _
  | .storeOcrOutputs _ _ _ | .failOcrHandoff _ _ _ _ _ | .markOcrHandoffCompletedForChild _
  | .getOrCreateProfileSuggestionOwner _ _ => False

theorem interruptedCandidate_move {s : Store} {run candidate}
    (h : interruptedCandidate s run = some candidate) :
    candidate.move = .completeCancellation ∨
      ∃ source failure, candidate.move = .fail source failure := by
  simp only [interruptedCandidate] at h
  split at h
  · obtain rfl := Option.some.inj h
    exact .inl rfl
  · split at h
    · cases h
    · split at h
      · cases h
      · obtain rfl := Option.some.inj h
        exact .inr ⟨_, _, rfl⟩

theorem getOrCreateProfileSuggestionOwner_same {amb hash version s t result}
    (h : getOrCreateProfileSuggestionOwner amb hash version s = .ok (result, t)) :
    SameRows s t := by
  simp only [getOrCreateProfileSuggestionOwner, peel_ok] at h
  obtain ⟨-, -, h⟩ := h
  split at h
  · simp only [peel_ok, refuseIf_eq_ok, return_ok, exists_const] at h
    obtain ⟨-, rfl⟩ := Prod.mk.inj h.2
    exact ⟨fun _ => rfl, id⟩
  · simp only [peel_ok, refuseIf_eq_ok, return_ok, exists_const] at h
    obtain ⟨-, rfl⟩ := Prod.mk.inj h.2
    exact ⟨fun _ => rfl, id⟩

theorem map_unit_ok {m : Except StoreError Store} {t : Store}
    (h : m.map (fun u => ((), u)) = .ok ((), t)) : m = .ok t := by
  cases m with
  | error e => cases h
  | ok u =>
      cases h
      rfl

/-- The move that an operation on one run makes, with the run and the version it expects. -/
def Operation.move? : Operation → Option (String × Nat × Move)
  | .startParsing r v => some (r, v, .start .parse)
  | .startNormalizing r v => some (r, v, .start .normalize)
  | .startStructuring r v => some (r, v, .start .structure)
  | .startChunking r v => some (r, v, .start .chunk)
  | .startAnalysis r v => some (r, v, .start .analyze)
  | .startSynthesis r v => some (r, v, .start .synthesize)
  | .startVerification r v => some (r, v, .start .verify)
  | .completeParsing r v artifact warnings => some (r, v, .complete .parsed artifact warnings)
  | .completeNormalization r v artifact warnings =>
    some (r, v, .complete .normalized artifact warnings)
  | .completeStructuring r v artifact warnings =>
    some (r, v, .complete .structured artifact warnings)
  | .completeChunking r v artifact warnings => some (r, v, .complete .chunked artifact warnings)
  | .completeAnalysis r v artifact warnings => some (r, v, .complete .analyzed artifact warnings)
  | .completeSynthesis r v artifact warnings =>
    some (r, v, .complete .synthesized artifact warnings)
  | .completeVerification r v _ artifact warnings =>
    some (r, v, .complete .verified artifact warnings)
  | .completeSummary r v summary citations => some (r, v, .finish summary citations)
  | .failParsing r v failure => some (r, v, .fail .parsing failure)
  | .failNormalization r v failure => some (r, v, .fail .normalizing failure)
  | .failStructuring r v failure => some (r, v, .fail .structuring failure)
  | .failChunking r v failure => some (r, v, .fail .chunking failure)
  | .failAnalysis r v failure => some (r, v, .fail .analyzing failure)
  | .failSynthesis r v failure => some (r, v, .fail .synthesizing failure)
  | .failVerification r v failure => some (r, v, .fail .verifying failure)
  | .failSummary r v failure => some (r, v, .fail .verified failure)
  | .completeCancellation r v => some (r, v, .completeCancellation)
  | _ => none

theorem body_moves {codec : Codec} {amb : Ambient} {op : Operation} {runId : String}
    {version : Nat} {m : Move} {s t : Store} (makes : op.move? = some (runId, version, m))
    (h : op.body codec amb s = .ok ((), t)) : Moved codec runId version m s t := by
  cases op with
  | startNormalizing =>
      cases makes
      obtain ⟨_, h⟩ := discardResult_ok.mp h
      exact startNormalizing_ok h
  | startParsing | startStructuring | startChunking | startAnalysis | startSynthesis
  | startVerification =>
      cases makes
      obtain ⟨_, h⟩ := discardResult_ok.mp h
      exact startStage_ok (fun _ _ other => nomatch other) h
  | completeParsing | completeNormalization | completeStructuring | completeChunking
  | completeAnalysis =>
      cases makes
      obtain ⟨_, h⟩ := discardResult_ok.mp h
      exact completeStage_ok rfl (records_insertArtifact (by decide)) h
  | completeSynthesis =>
      cases makes
      obtain ⟨_, h⟩ := discardResult_ok.mp h
      exact completeStage_ok rfl records_synthesis h
  | completeVerification =>
      cases makes
      obtain ⟨_, h⟩ := discardResult_ok.mp h
      exact completeStage_ok rfl records_verification h
  | completeSummary =>
      cases makes
      obtain ⟨_, h⟩ := discardResult_ok.mp h
      exact completeSummary_ok h
  | failParsing | failNormalization | failStructuring | failChunking | failAnalysis
  | failSynthesis | failVerification | failSummary =>
      cases makes
      obtain ⟨_, h⟩ := discardResult_ok.mp h
      exact failDownstreamStage_ok rfl h
  | completeCancellation =>
      cases makes
      obtain ⟨_, h⟩ := discardResult_ok.mp h
      exact completeCancellation_ok h
  | _ => cases makes

/-- What an operation that succeeds does to the rows of every run. -/
theorem body_follows {codec : Codec} {amb : Ambient} {op : Operation} {s t : Store}
    (h : op.body codec amb s = .ok ((), t)) :
    Follows codec (fun runId label => op.Allows runId label) s t := by
  cases op with
  | persistIngestion document run snapshot profile =>
      obtain ⟨_, h⟩ := discardResult_ok.mp h
      exact (persistIngestionWithProfiles_ok h).follows fun _ ok => ⟨rfl, ok⟩
  | persistCorrectedDocument document run parsed source =>
      obtain ⟨_, h⟩ := discardResult_ok.mp h
      exact (persistCorrectedDocument_ok h).follows fun _ ok => ⟨rfl, ok⟩
  | createRetryRun source version run =>
      obtain ⟨_, h⟩ := discardResult_ok.mp h
      exact (createRetryRun_ok h).follows fun _ ok => ⟨rfl, ok⟩
  | ensureRunModelProfile runId snapshot =>
      exact .of_same (ensureRunModelProfile_gives (map_unit_ok h)).same
  | ensureRunSummaryProfile runId profile =>
      exact .of_same (ensureRunSummaryProfile_gives (map_unit_ok h)).same
  | startParsing | startNormalizing | startStructuring | startChunking | startAnalysis
  | startSynthesis | startVerification | completeParsing | completeNormalization
  | completeStructuring | completeChunking | completeAnalysis | completeSynthesis
  | completeVerification | completeSummary | failParsing | failNormalization | failStructuring
  | failChunking | failAnalysis | failSynthesis | failVerification | failSummary
  | completeCancellation =>
      exact .of_moved (body_moves rfl h) ⟨rfl, rfl⟩
  | recordVerificationAttempt runId version ordinal verified =>
      exact .of_oneStep (recordVerificationAttempt_ok h).2 ⟨rfl, rfl⟩
  | requestCancellation runId version =>
      obtain ⟨_, h⟩ := discardResult_ok.mp h
      obtain ⟨source, moved⟩ := requestCancellation_ok codec h
      exact .of_moved moved ⟨rfl, source, rfl⟩
  | failBackgroundExecution runId expected version failure =>
      obtain ⟨_, h⟩ := discardResult_ok.mp h
      obtain ⟨run, -, ⟨-, moved⟩ | ⟨-, moved⟩⟩ := failBackgroundExecution_ok codec h
      · exact .of_moved moved ⟨rfl, .inl rfl⟩
      · exact .of_moved moved ⟨rfl, .inr rfl⟩
  | reconcileInterruptedRunsInTransaction interrupted =>
      obtain ⟨_, h⟩ := discardResult_ok.mp h
      exact reconcileInterruptedRunsInTransaction_ok
        (fun candidate mem => ⟨candidate, mem, rfl, rfl⟩) h
  | reconcileInterruptedRuns =>
      obtain ⟨_, h⟩ := discardResult_ok.mp h
      refine reconcileInterruptedRunsInTransaction_ok (fun candidate mem => ?_) h
      obtain ⟨run, -, made⟩ := List.mem_filterMap.mp mem
      rcases interruptedCandidate_move made with cancels | ⟨source, failure, fails⟩
      · exact .inl (congrArg Label.move cancels)
      · exact .inr ⟨source, failure, congrArg Label.move fails⟩
  | prepareOcrHandoff admission =>
      obtain ⟨_, h⟩ := discardResult_ok.mp h
      rcases prepareOcrHandoff_ok h with same | step
      · exact .of_same same
      · exact .of_oneStep step ⟨rfl, rfl⟩
  | transitionOcrHandoff handoffId expected next status =>
      obtain ⟨_, h⟩ := discardResult_ok.mp h
      exact .of_same (transitionOcrHandoff_same h)
  | storeOcrOutputs handoffId expected output =>
      obtain ⟨_, h⟩ := discardResult_ok.mp h
      exact .of_same (storeOcrOutputs_same h)
  | failOcrHandoff handoffId expected code message retryable =>
      obtain ⟨_, h⟩ := discardResult_ok.mp h
      exact .of_same (failOcrHandoff_same h)
  | admitOcrChild handoff document run =>
      obtain ⟨_, h⟩ := discardResult_ok.mp h
      rcases admitOcrChild_ok h with same | ⟨u, version, failure, creation, fails⟩
      · exact .of_same same
      · have child : Follows codec
            (fun runId label => (Operation.admitOcrChild handoff document run).Allows runId label)
            s u := creation.follows fun _ ok => Or.inl ⟨rfl, ok⟩
        exact child.trans (.of_moved fails (Or.inr ⟨rfl, failure, rfl⟩))
  | markOcrHandoffCompletedForChild childRunId =>
      obtain ⟨_, h⟩ := discardResult_ok.mp h
      exact .of_same (markOcrHandoffCompletedForChild_same h)
  | rewindInterruptedOcrChild childRunId =>
      obtain ⟨_, h⟩ := discardResult_ok.mp h
      rcases rewindInterruptedOcrChild_ok codec h with ⟨rfl, -⟩ | ⟨run, stage, -, -, moved⟩
      · exact .of_same (.refl _)
      · exact .of_moved moved ⟨rfl, stage, rfl⟩
  | getOrCreateProfileSuggestionOwner hash version =>
      obtain ⟨_, h⟩ := discardResult_ok.mp h
      exact .of_same (getOrCreateProfileSuggestionOwner_same h)

/-- The store refines the lifecycle: a call takes every run through steps its operation
allows, and one that fails changes nothing. -/
theorem call_follows (codec : Codec) (call : Call) (s : Store) :
    Follows codec (fun runId label => call.operation.Allows runId label) s
      (call.after codec s) := by
  cases outcome : call.result codec s with
  | ok _ => exact body_follows (after_of_ok outcome)
  | error e =>
      rw [after_of_error outcome]
      exact .of_same (.refl s)

/-- What every step of the lifecycle keeps holds of every run of every reachable store. -/
theorem Reachable.rows_invariant {codec : Codec} {runId : String} {P : RunRows → Prop}
    (start : P .absent) (keep : ∀ v label w, P v → Step codec runId v label w → P w) {s : Store}
    (h : Reachable codec s) : P (s.rowsOf runId) := by
  refine Machine.Reachable.invariant (P := fun s => P (s.rowsOf runId)) ?_ ?_ h
  · rintro _ rfl
    exact start
  · rintro s call _ rfl hs
    refine Machine.path_preserves ?_ ((call_follows codec call s).path runId) hs
    rintro v w ⟨label, -, step⟩ hv
    exact keep v label w hv step

theorem Reachable.documentsPresent {codec : Codec} {s : Store} (h : Reachable codec s) :
    DocumentsPresent s := by
  refine Machine.Reachable.invariant (P := DocumentsPresent) ?_ ?_ h
  · rintro _ rfl runId run found
    cases found
  · rintro s call _ rfl present
    exact (call_follows codec call s).documents present

theorem Reachable.after {codec : Codec} {s : Store} (h : Reachable codec s) (call : Call) :
    Reachable codec (call.after codec s) :=
  Machine.Reachable.next (a := call) h rfl

theorem result_of_ok {codec : Codec} {call : Call} {s t : Store}
    (h : call.operation.body codec call.ambient s = .ok ((), t)) :
    call.result codec s = .ok () ∧ call.after codec s = t := by
  have done := transaction_of_ok h
  exact ⟨congrArg Prod.fst done, congrArg Prod.snd done⟩

end DocumentSummarizer.Pipeline
