import DocumentSummarizer.Library.KeyedRows
import DocumentSummarizer.Pipeline.CorrectedText

/-! # The history of corrections

A document is corrected once, by a run that only adds to the store.  Whoever asks again
gets the run that there is or a refusal, and what was corrected is never read again.
-/

namespace DocumentSummarizer.Pipeline

open Library

/-! ## What a correction records -/

section Records

variable {codec : Codec}

theorem Store.Extends.parsed {s t : Store} {runId : String} {parsed : ParsedDocument}
    (grown : s.Extends t) (read : getParsedDocument s runId = some parsed) :
    getParsedDocument t runId = some parsed := by
  obtain ⟨stored, found, rfl⟩ := Option.map_eq_some_iff.mp read
  exact congrArg (Option.map ArtifactRow.artifact) ((grown.rows runId).artifacts .parsed _ found)

/-- What stands behind a row of the table, in every store from its insertion on. -/
structure HoldsCorrection (codec : Codec) (s : Store) (row : OcrTextCorrection) : Prop where
  successor : ∃ run, getPipelineRun s row.runId = some run ∧ run.documentId = row.documentId
  stored : (s.artifacts .parsed).lookup row.runId = some (.of codec .parsed row.correctedParsed)
  profile : ∃ profile, getRunSummaryProfile s row.sourceRunId = some profile ∧
    getRunSummaryProfile s row.runId = some profile
  source : ∃ run, getPipelineRun s row.sourceRunId = some run ∧ 0 < row.sourceVersion ∧
    row.sourceVersion ≤ run.stateVersion
  corrects : ∃ parsed changes corrected, getParsedDocument s row.sourceRunId = some parsed ∧
    parsed.documentId = row.sourceDocumentId ∧ parsedHash codec parsed = row.sourceParsedHash ∧
    applyPages parsed changes = .ok corrected ∧
    row.correctedParsed = { corrected with documentId := row.documentId }
  hashed : row.correctedParsedHash = parsedHash codec row.correctedParsed
  scanned : row.correctedParsed.sourceType = .ocrText
  warned : row.correctedParsed.warnings.any isCorrectionWarning = true

theorem HoldsCorrection.parsed {s : Store} {row : OcrTextCorrection}
    (holds : HoldsCorrection codec s row) :
    getParsedDocument s row.runId = some row.correctedParsed :=
  congrArg (Option.map ArtifactRow.artifact) holds.stored

theorem HoldsCorrection.extends {s t : Store} {row : OcrTextCorrection}
    (holds : HoldsCorrection codec s row) (grown : s.Extends t) : HoldsCorrection codec t row where
  successor := by
    obtain ⟨run, found, document⟩ := holds.successor
    obtain ⟨run', found', same, -⟩ := (grown.rows row.runId).row run found
    exact ⟨run', found', same.trans document⟩
  stored := (grown.rows row.runId).artifacts .parsed _ holds.stored
  profile := by
    obtain ⟨profile, source, successor⟩ := holds.profile
    exact ⟨profile, grown.summaries _ _ source, grown.summaries _ _ successor⟩
  source := by
    obtain ⟨run, found, positive, version⟩ := holds.source
    obtain ⟨run', found', -, -, later, -⟩ := (grown.rows row.sourceRunId).row run found
    exact ⟨run', found', positive, version.trans later⟩
  corrects := by
    obtain ⟨parsed, changes, corrected, read, rest⟩ := holds.corrects
    exact ⟨parsed, changes, corrected, grown.parsed read, rest⟩
  hashed := holds.hashed
  scanned := holds.scanned
  warned := holds.warned

variable {document : IngestedDocument}

theorem correctionSource_ok {s : Store} {runId : String} {run : PipelineRun}
    {parsed : ParsedDocument}
    (h : correctionSource s runId = .ok (run, document, parsed)) :
    getPipelineRun s runId = some run ∧ getDocument s run.documentId = some document ∧
      getParsedDocument s runId = some parsed ∧
      parsed.sourceType = .ocrText ∧ parsed.documentId = document.documentId := by
  simp only [correctionSource, peel_ok, okOrElse_eq_ok, refuseIf_eq_ok, return_ok, exists_const,
    not_or, not_not, ne_eq] at h
  obtain ⟨_, found, _, stored, -, _, read, owned, h⟩ := h
  cases h
  exact ⟨found, stored, read, owned⟩

theorem transitionInTx_row {amb : Ambient} {reading : Nat} {s t : Store} {runId : String}
    {expected next : PipelineState} {version : Nat} {stage : Option PipelineStage}
    {reason : Option String} {patch : TransitionPatch} {result : PipelineRun}
    (h : transitionInTx amb reading s runId expected version next stage reason patch =
      .ok (result, t)) :
    getPipelineRun t runId = some result ∧ t.artifacts = s.artifacts := by
  have same := transitionInTx_runId h
  obtain ⟨_, -, -, -, -, -, -, -, -, rfl⟩ := transitionInTx_ok.mp h
  exact ⟨getPipelineRun_setRun_self (s := s) same, rfl⟩

theorem persistCorrectedDocument_records {amb : Ambient}
    {run result : PipelineRun} {parsed : ParsedDocument} {source : String} {s t : Store}
    (h : persistCorrectedDocument codec amb document run parsed source s = .ok (result, t)) :
    result.runId = run.runId ∧ getPipelineRun t run.runId = some result ∧
      result.documentId = run.documentId ∧
      (t.artifacts .parsed).lookup run.runId = some (.of codec .parsed parsed) ∧
      ∃ profile, getRunSummaryProfile t source = some profile ∧
        getRunSummaryProfile t run.runId = some profile := by
  have creation : Creation codec run s t := persistCorrectedDocument_ok h
  have retains := (persistCorrectedDocument_profiles h).retains
  simp only [persistCorrectedDocument, peel_ok, okOrElse_eq_ok] at h
  obtain ⟨profile, inherited, ⟨ingested, u⟩, persisted, w, profiled, ⟨parsing, x⟩, started, y,
    inserted, completed⟩ := h
  obtain ⟨-, key⟩ := persistIngestionInTransaction_ok codec persisted
  have recorded : getRunSummaryProfile u run.runId = some profile :=
    key ▸ (persistIngestionInTransaction_profiled persisted).2
  have kept := (ensureRunModelProfile_gives profiled).profiled.retains.trans
    ((transitionInTx_lineages started).trans ((insertArtifact_lineages inserted).trans
      (transitionInTx_lineages completed))).retains
  obtain ⟨row, artifacts⟩ := transitionInTx_row completed
  obtain ⟨-, -, -, rfl⟩ := insertArtifact_ok.mp inserted
  refine ⟨transitionInTx_runId completed, row, creation.ofDocument result row, ?_, profile,
    retains.summaries _ _ inherited, kept.summaries _ _ recorded⟩
  simp only [artifacts, Store.setArtifact, Function.update_self]
  exact AList.lookup_insert _

/-! ## What a save does -/

/-- The text that a request corrects, and the corrected text. -/
structure Requested (codec : Codec) (s : Store) (request : SaveCorrection)
    (document : IngestedDocument) (parsed corrected : ParsedDocument) : Prop where
  source : ∃ run, correctionSource s request.runId = .ok (run, document, parsed) ∧
    run.stateVersion = request.expectedStateVersion
  hashed : parsedHash codec parsed = request.sourceParsedHash
  applies : applyPages parsed request.pages = .ok corrected

variable {amb : Ambient} {request : SaveCorrection} {s t : CorrectionStore} {run : PipelineRun}

theorem save_ok : save codec amb request s = .ok (run, t) ↔
    ∃ document parsed corrected, Requested codec s.pipeline request document parsed corrected ∧
      ((∃ row, s.corrections.find? (·.sourceDocumentId = document.documentId) = some row ∧
          answerExisting codec s request corrected row = .ok run ∧ t = s) ∨
        s.corrections.find? (·.sourceDocumentId = document.documentId) = none ∧
          createSuccessor codec amb request document corrected s = .ok (run, t)) := by
  simp only [save, peel_ok, refuseIf_eq_ok, exists_const, not_or, not_not, ne_eq]
  constructor
  · rintro ⟨⟨sourceRun, document, parsed⟩, source, ⟨version, hashed⟩, corrected, applies, h⟩
    refine ⟨document, parsed, corrected, ⟨⟨sourceRun, source, version⟩, hashed, applies⟩, ?_⟩
    split at h
    · next row found =>
        obtain ⟨answer, answered, h⟩ := peel_ok.mp h
        obtain ⟨rfl, rfl⟩ := Prod.mk.inj (return_ok.mp h)
        exact .inl ⟨row, found, answered, rfl⟩
    · next absent => exact .inr ⟨absent, h⟩
  · rintro ⟨document, parsed, corrected, ⟨⟨sourceRun, source, version⟩, hashed, applies⟩, h⟩
    refine ⟨(sourceRun, document, parsed), source, ⟨version, hashed⟩, corrected, applies, ?_⟩
    rcases h with ⟨row, found, answered, rfl⟩ | ⟨absent, created⟩
    · simp only [found]
      exact peel_ok.mpr ⟨run, answered, rfl⟩
    · simp only [absent]
      exact created

/-- The store's part in a correction. -/
def successorCall (amb : Ambient) (request : SaveCorrection) (document : IngestedDocument)
    (corrected : ParsedDocument) : Call :=
  ⟨amb, .persistCorrectedDocument
    { document with documentId := amb.newV4 5, createdAt := amb.now 5 }
    (prepareReceivedRun (amb.newV4 6) (amb.newV4 5) (amb.now 5))
    { corrected with documentId := amb.newV4 5 } request.runId⟩

theorem successorCall_after {corrected : ParsedDocument}
    {pipeline : Store}
    (h : persistCorrectedDocument codec amb
      { document with documentId := amb.newV4 5, createdAt := amb.now 5 }
      (prepareReceivedRun (amb.newV4 6) (amb.newV4 5) (amb.now 5))
      { corrected with documentId := amb.newV4 5 } request.runId s.pipeline = .ok (run, pipeline)) :
    (successorCall amb request document corrected).after codec s.pipeline = pipeline :=
  congrArg Prod.snd (transaction_of_ok (discardResult_ok.mpr ⟨_, h⟩))

def successorRow (codec : Codec) (amb : Ambient) (request : SaveCorrection)
    (document : IngestedDocument) (corrected : ParsedDocument) : OcrTextCorrection where
  documentId := amb.newV4 5
  runId := amb.newV4 6
  sourceDocumentId := document.documentId
  sourceRunId := request.runId
  sourceVersion := request.expectedStateVersion
  sourceParsedHash := request.sourceParsedHash
  correctedParsedHash := parsedHash codec { corrected with documentId := amb.newV4 5 }
  correctedParsed := { corrected with documentId := amb.newV4 5 }
  createdAt := amb.now 5

/-- A row of the table is new under each of its keys. -/
structure NewRow (rows : List OcrTextCorrection) (row : OcrTextCorrection) : Prop where
  document : ∀ other ∈ rows, other.documentId ≠ row.documentId
  run : ∀ other ∈ rows, other.runId ≠ row.runId
  source : ∀ other ∈ rows, other.sourceDocumentId ≠ row.sourceDocumentId

theorem createSuccessor_ok {corrected : ParsedDocument}
    (h : createSuccessor codec amb request document corrected s = .ok (run, t)) :
    (∃ pipeline, persistCorrectedDocument codec amb
        { document with documentId := amb.newV4 5, createdAt := amb.now 5 }
        (prepareReceivedRun (amb.newV4 6) (amb.newV4 5) (amb.now 5))
        { corrected with documentId := amb.newV4 5 } request.runId s.pipeline =
          .ok (run, pipeline)) ∧
      0 < request.expectedStateVersion ∧
      t = ⟨(successorCall amb request document corrected).after codec s.pipeline,
        s.corrections ++ [successorRow codec amb request document corrected]⟩ ∧
      NewRow s.corrections (successorRow codec amb request document corrected) := by
  simp only [createSuccessor, insertCorrection, peel_ok, refuseIf_eq_ok, return_ok, exists_const,
    mapError_ok_iff, not_or, not_exists, not_and] at h
  obtain ⟨⟨created, pipeline⟩, persisted, _, ⟨version, documents, keys, -, rfl⟩, h⟩ := h
  cases h
  have after := successorCall_after persisted
  have key : created.runId = amb.newV4 6 := (persistCorrectedDocument_records persisted).1
  rw [key] at keys ⊢
  refine ⟨⟨pipeline, persisted⟩, Nat.pos_of_ne_zero version, by rw [after]; rfl, documents, ?_, ?_⟩
  · exact fun other mem => (keys other mem).1
  · exact fun other mem => (keys other mem).2

theorem successor_holds (reach : Reachable codec s.pipeline)
    {parsed corrected : ParsedDocument}
    (requested : Requested codec s.pipeline request document parsed corrected)
    (h : createSuccessor codec amb request document corrected s = .ok (run, t)) :
    HoldsCorrection codec t.pipeline (successorRow codec amb request document corrected) := by
  obtain ⟨⟨pipeline, persisted⟩, positive, rfl, -⟩ := createSuccessor_ok h
  have grown := call_extends (successorCall amb request document corrected) reach
  obtain ⟨-, row, ofDocument, stored, profile, source, successor⟩ :=
    persistCorrectedDocument_records persisted
  obtain ⟨sourceRun, read, version⟩ := requested.source
  obtain ⟨found, -, held, scanned, owned⟩ := correctionSource_ok read
  obtain ⟨-, same, -, warned⟩ := applyPages_same requested.applies
  rw [successorCall_after persisted] at grown ⊢
  refine ⟨⟨run, row, ofDocument⟩, stored, ⟨profile, source, successor⟩, ?_,
    ⟨parsed, request.pages, corrected, grown.parsed held, owned, requested.hashed,
      requested.applies, rfl⟩, rfl, ?_, warned⟩
  · obtain ⟨sourceRun', found', -, -, later, -⟩ := (grown.rows request.runId).row sourceRun found
    exact ⟨sourceRun', found', positive, version.ge.trans later⟩
  · change corrected.sourceType = .ocrText
    rw [same]
    exact scanned

/-! ## What a transaction does to the table -/

inductive CorrectionStep (codec : Codec) (s : CorrectionStore) : CorrectionStore → Prop where
  | pipeline (call : Call) : CorrectionStep codec s ⟨call.after codec s.pipeline, s.corrections⟩
  | kept : CorrectionStep codec s s
  | corrected (call : Call) (row : OcrTextCorrection) : NewRow s.corrections row →
      HoldsCorrection codec (call.after codec s.pipeline) row →
      getPipelineRun s.pipeline row.runId = none →
      getPipelineRun s.pipeline row.sourceRunId ≠ none →
      CorrectionStep codec s ⟨call.after codec s.pipeline, s.corrections ++ [row]⟩

theorem save_step (reach : Reachable codec s.pipeline)
    (h : save codec amb request s = .ok (run, t)) : CorrectionStep codec s t := by
  obtain ⟨document, parsed, corrected, requested, outcome⟩ := save_ok.mp h
  rcases outcome with ⟨row, -, -, rfl⟩ | ⟨-, created⟩
  · exact .kept
  · have holds := successor_holds reach requested created
    obtain ⟨⟨pipeline, persisted⟩, -, rfl, new⟩ := createSuccessor_ok created
    have creation : Creation codec _ s.pipeline pipeline := persistCorrectedDocument_ok persisted
    obtain ⟨sourceRun, read, -⟩ := requested.source
    have found := (correctionSource_ok read).1
    exact .corrected _ _ new holds creation.absent fun none => by
      cases none.symm.trans found

theorem saved_after (h : save codec amb request s = .ok (run, t)) :
    (CorrectionCall.save amb request).after codec s = t :=
  congrArg Prod.snd (transaction_of_ok h)

theorem refused_after {e : CorrectionError} (h : save codec amb request s = .error e) :
    (CorrectionCall.save amb request).after codec s = s := by
  simp only [CorrectionCall.after, transaction, h]

theorem correctionCall_step (reach : Reachable codec s.pipeline) (call : CorrectionCall) :
    CorrectionStep codec s (call.after codec s) := by
  cases call with
  | pipeline call => exact .pipeline call
  | save amb request =>
      cases outcome : save codec amb request s with
      | error e =>
          rw [refused_after outcome]
          exact .kept
      | ok result =>
          rw [saved_after outcome]
          exact save_step reach outcome

/-! ## What holds of the table -/

structure CorrectionHistory (codec : Codec) (s : CorrectionStore) : Prop where
  pipeline : Reachable codec s.pipeline
  rows : ∀ row ∈ s.corrections, HoldsCorrection codec s.pipeline row
  documents : (s.corrections.map (·.documentId)).Nodup
  runs : (s.corrections.map (·.runId)).Nodup
  sources : (s.corrections.map (·.sourceDocumentId)).Nodup
  ranked : ∃ rank : String → Nat, ∀ row ∈ s.corrections, rank row.sourceRunId < rank row.runId

theorem CorrectionStep.keeps (step : CorrectionStep codec s t)
    (history : CorrectionHistory codec s) : CorrectionHistory codec t := by
  cases step with
  | kept => exact history
  | pipeline call =>
      have grown := call_extends call history.pipeline
      exact ⟨history.pipeline.after call, fun row mem => (history.rows row mem).extends grown,
        history.documents, history.runs, history.sources, history.ranked⟩
  | corrected call row new holds absent present =>
      have grown := call_extends call history.pipeline
      refine ⟨history.pipeline.after call, ?_, nodup_snoc history.documents new.document,
        nodup_snoc history.runs new.run, nodup_snoc history.sources new.source, ?_⟩
      · intro other mem
        rcases List.mem_append.mp mem with before | last
        · exact (history.rows other before).extends grown
        · rw [List.mem_singleton.mp last]
          exact holds
      · -- no row is about the new run yet
        obtain ⟨rank, ranked⟩ := history.ranked
        refine ⟨Function.update rank row.runId (rank row.sourceRunId + 1), fun other mem => ?_⟩
        rcases List.mem_append.mp mem with before | last
        · obtain ⟨source, found, -⟩ := (history.rows other before).source
          have apart : other.sourceRunId ≠ row.runId := by
            intro same
            cases absent.symm.trans (same ▸ found)
          rw [Function.update_of_ne apart, Function.update_of_ne (new.run other before)]
          exact ranked other before
        · rw [List.mem_singleton.mp last]
          have apart : row.sourceRunId ≠ row.runId := by
            intro same
            exact present (same ▸ absent)
          rw [Function.update_of_ne apart, Function.update_self]
          exact Nat.lt_succ_self _

theorem history_of_reachable (reach : (correctionMachine codec).Reachable s) :
    CorrectionHistory codec s := by
  refine reach.invariant ?_ ?_
  · rintro s rfl
    exact ⟨.of_init rfl, fun _ mem => absurd mem List.not_mem_nil, List.nodup_nil, List.nodup_nil,
      List.nodup_nil, fun _ => 0, fun _ mem => absurd mem List.not_mem_nil⟩
  · rintro s call _ rfl history
    exact (correctionCall_step history.pipeline call).keeps history

theorem corrections_grow {calls : List CorrectionCall} (history : CorrectionHistory codec s)
    (run : (correctionMachine codec).Run s calls t) :
    CorrectionHistory codec t ∧ s.pipeline.Extends t.pipeline ∧
      s.corrections <+: t.corrections := by
  refine run.preserves (P := fun u => CorrectionHistory codec u ∧ s.pipeline.Extends u.pipeline ∧
    s.corrections <+: u.corrections) ?_ ⟨history, .refl _, List.prefix_refl _⟩
  rintro u call _ rfl ⟨history', grown, kept⟩
  have step := correctionCall_step history'.pipeline call
  refine ⟨step.keeps history', ?_⟩
  generalize call.after codec u = w at step
  cases step with
  | kept => exact ⟨grown, kept⟩
  | pipeline inner => exact ⟨grown.trans (call_extends inner history'.pipeline), kept⟩
  | corrected inner row =>
      exact ⟨grown.trans (call_extends inner history'.pipeline),
        kept.trans (List.prefix_append _ _)⟩

namespace CorrectionHistory

variable {row : OcrTextCorrection}

theorem loadForDocument_eq (history : CorrectionHistory codec s) (mem : row ∈ s.corrections) :
    loadForDocument codec s row.documentId = .ok (some row.correctedParsed) := by
  have holds := history.rows row mem
  obtain ⟨parsed, changes, corrected, -, -, -, -, same⟩ := holds.corrects
  have found := (find_eq_some_iff history.documents).mpr ⟨mem, rfl⟩
  simp only [loadForDocument, found, peel_ok, refuseIf_eq_ok, exists_const, return_ok, not_or,
    not_not, ne_eq, Bool.not_eq_false, and_true]
  exact ⟨holds.hashed.symm, by rw [same], holds.scanned, holds.warned⟩

theorem answerExisting_ok (history : CorrectionHistory codec s) (mem : row ∈ s.corrections)
    {corrected : ParsedDocument} :
    answerExisting codec s request corrected row = .ok run ↔ row.sourceRunId = request.runId ∧
      { corrected with documentId := row.documentId } = row.correctedParsed ∧
      getPipelineRun s.pipeline row.runId = some run := by
  simp only [answerExisting, history.loadForDocument_eq mem, peel_ok, okOrElse_eq_ok,
    refuseIf_eq_ok, exists_const, not_or, not_not, ne_eq, Except.ok.injEq, exists_eq_left',
    Option.some.injEq, and_assoc]

theorem saved_row (history : CorrectionHistory codec s)
    (h : save codec amb request s = .ok (run, t)) :
    ∃ document parsed corrected row, Requested codec s.pipeline request document parsed corrected ∧
      row ∈ t.corrections ∧ row.sourceDocumentId = document.documentId ∧
      row.sourceRunId = request.runId ∧ getPipelineRun t.pipeline row.runId = some run ∧
      row.correctedParsed = { corrected with documentId := row.documentId } := by
  obtain ⟨document, parsed, corrected, requested, outcome⟩ := save_ok.mp h
  rcases outcome with ⟨row, found, answered, rfl⟩ | ⟨-, created⟩
  · obtain ⟨mem, same⟩ := (find_eq_some_iff history.sources).mp found
    obtain ⟨source, text, answer⟩ := (history.answerExisting_ok mem).mp answered
    exact ⟨document, parsed, corrected, row, requested, mem, same, source, answer, text.symm⟩
  · obtain ⟨⟨pipeline, persisted⟩, -, rfl, -⟩ := createSuccessor_ok created
    have after : (successorCall amb request document corrected).after codec s.pipeline =
        pipeline := congrArg Prod.snd (transaction_of_ok (discardResult_ok.mpr ⟨_, persisted⟩))
    refine ⟨document, parsed, corrected, _, requested,
      List.mem_append_right _ List.mem_cons_self, rfl, rfl, ?_, rfl⟩
    rw [after]
    exact (persistCorrectedDocument_records persisted).2.1

theorem save_kept (history : CorrectionHistory codec s) (mem : row ∈ s.corrections)
    {document : IngestedDocument} (found : getPipelineRun s.pipeline request.runId = some run)
    (stored : getDocument s.pipeline run.documentId = some document)
    (same : row.sourceDocumentId = document.documentId) :
    (CorrectionCall.save amb request).after codec s = s := by
  cases outcome : save codec amb request s with
  | error e => exact refused_after outcome
  | ok result =>
      rw [saved_after outcome]
      obtain ⟨document', _, _, requested, outcome⟩ := save_ok.mp outcome
      obtain ⟨run', source, -⟩ := requested.source
      obtain ⟨found', stored', -⟩ := correctionSource_ok source
      obtain rfl : run = run' := Option.some.inj (found.symm.trans found')
      obtain rfl : document = document' := Option.some.inj (stored.symm.trans stored')
      have listed := (find_eq_some_iff history.sources).mpr ⟨mem, same⟩
      rcases outcome with ⟨_, -, -, kept⟩ | ⟨absent, -⟩
      · exact kept
      · cases absent.symm.trans listed

end CorrectionHistory

theorem GivesProfile.owners {runId : String} {s t : Store} (gives : GivesProfile runId s t) :
    t.modelRequestOwners = s.modelRequestOwners := by
  cases gives <;> rfl

theorem transitionInTx_owners {amb : Ambient} {reading : Nat} {s t : Store} {runId : String}
    {expected next : PipelineState} {version : Nat} {stage : Option PipelineStage}
    {reason : Option String} {patch : TransitionPatch} {result : PipelineRun}
    (h : transitionInTx amb reading s runId expected version next stage reason patch =
      .ok (result, t)) :
    t.modelRequestOwners = s.modelRequestOwners := by
  obtain ⟨_, -, -, -, -, -, -, -, -, rfl⟩ := transitionInTx_ok.mp h
  rfl

theorem persistReceivedRunToIngested_owners {amb : Ambient} {run result : PipelineRun}
    {creationReason : String} {reason : Option String} {s t : Store}
    (h : persistReceivedRunToIngested amb s run creationReason reason = .ok (result, t)) :
    t.modelRequestOwners = s.modelRequestOwners.insert run.runId .pipelineRun := by
  simp only [persistReceivedRunToIngested, peel_ok] at h
  obtain ⟨u, row, w, event, ⟨ingesting, x⟩, started, finished⟩ := h
  obtain ⟨-, -, -, -, rfl⟩ := insertPipelineRun_ok.mp row
  obtain ⟨-, rfl⟩ := insertPipelineEvent_ok.mp event
  exact (transitionInTx_owners finished).trans (transitionInTx_owners started)

theorem persistIngestionInTransaction_owners {amb : Ambient}
    {run result : PipelineRun} {profile : SummaryProfile} {s t : Store}
    (h : persistIngestionInTransaction amb s document run profile = .ok (result, t)) :
    t.modelRequestOwners = s.modelRequestOwners.insert run.runId .pipelineRun := by
  simp only [persistIngestionInTransaction, peel_ok, return_ok] at h
  obtain ⟨_, -, u, inserted, ⟨ingested, w⟩, persisted, x, profiled, h⟩ := h
  obtain ⟨-, rfl⟩ := Prod.mk.inj h
  obtain ⟨-, -, stored⟩ := insertDocument_ok.mp inserted
  have kept : u.modelRequestOwners = s.modelRequestOwners := by rw [← stored]
  rw [(ensureRunSummaryProfile_gives profiled).owners,
    persistReceivedRunToIngested_owners persisted, kept]

theorem persistCorrectedDocument_owners {amb : Ambient}
    {run result : PipelineRun} {parsed : ParsedDocument} {source : String} {s t : Store}
    (h : persistCorrectedDocument codec amb document run parsed source s = .ok (result, t)) :
    t.modelRequestOwners = s.modelRequestOwners.insert run.runId .pipelineRun := by
  simp only [persistCorrectedDocument, peel_ok] at h
  obtain ⟨_, -, ⟨ingested, u⟩, persisted, w, profiled, ⟨parsing, x⟩, started, y, inserted,
    completed⟩ := h
  obtain ⟨-, -, -, stored⟩ := insertArtifact_ok.mp inserted
  have kept : y.modelRequestOwners = x.modelRequestOwners := by
    rw [← stored]
    rfl
  rw [transitionInTx_owners completed, kept, transitionInTx_owners started,
    (ensureRunModelProfile_gives profiled).owners, persistIngestionInTransaction_owners persisted]

/-- Everything that is stored for one run. -/
def Store.storedFor (s : Store) (runId : String) :=
  (s.rowsOf runId, getRunModelProfile s runId, getRunSummaryProfile s runId,
    s.modelRequestOwners.lookup runId)

theorem save_frame (h : save codec amb request s = .ok (run, t)) :
    (∀ other, getPipelineRun s.pipeline other ≠ none →
      t.pipeline.storedFor other = s.pipeline.storedFor other) ∧
    t.pipeline.beside = s.pipeline.beside := by
  obtain ⟨document, parsed, corrected, -, outcome⟩ := save_ok.mp h
  rcases outcome with ⟨row, -, -, rfl⟩ | ⟨-, created⟩
  · exact ⟨fun _ _ => rfl, rfl⟩
  · obtain ⟨⟨pipeline, persisted⟩, -, rfl, -⟩ := createSuccessor_ok created
    have creation : Creation codec _ s.pipeline pipeline := persistCorrectedDocument_ok persisted
    have kept := persistCorrectedDocument_profiles persisted
    rw [successorCall_after persisted]
    refine ⟨fun other present => ?_, kept.beside⟩
    have ne : other ≠ (prepareReceivedRun (amb.newV4 6) (amb.newV4 5) (amb.now 5)).runId := by
      rintro rfl
      exact present creation.absent
    rw [Store.storedFor, creation.frame other ne, kept.models other ne, kept.summaries other ne,
      persistCorrectedDocument_owners persisted, AList.lookup_insert_ne ne]
    rfl

/-! ## Parsing a corrected document -/

theorem parserPages_ok {index : Nat} {pages : List ParsedPage} :
    Parser.validateParsedPages index pages = .ok () ↔ validateParsedPages index pages = .ok () := by
  induction pages generalizing index with
  | nil => exact Iff.rfl
  | cons page rest ih =>
      simp only [Parser.validateParsedPages, validateParsedPages, peel_ok, okOrElse_eq_ok,
        refuseIf_eq_ok, exists_const, ih]

theorem corrected_accepted {selected : DocumentParser} {source document : IngestedDocument}
    {parsed corrected : ParsedDocument} {changes : List PageCorrection}
    (applies : applyPages parsed changes = .ok corrected)
    (provenance : document.sourceType = source.sourceType)
    (accepted : Parser.validateParsedDocument parsed source selected = .ok ()) :
    Parser.validateParsedDocument { corrected with documentId := document.documentId } document
      selected = .ok () := by
  simp only [Parser.validateParsedDocument, peel_ok, refuseIf_eq_ok, exists_const, not_or, not_not,
    ne_eq, parserPages_ok] at accepted ⊢
  obtain ⟨-, ⟨parserId, parserVersion⟩, sourceType, pages⟩ := accepted
  have correction := applyPages_ok (numbers_nodup fun i page found => by
    have number := (validateParsedPages_ok pages).1 i page found
    omega) applies
  have legible := fun edit mem => (correction.edits edit mem).1
  refine ⟨trivial, ?_, ?_, validateParsedPages_edited correction.pages legible pages⟩
  · rw [correction.same]
    exact ⟨parserId, parserVersion⟩
  · rw [correction.same, provenance]
    exact sourceType

/-- The runs of a document are parsed to `text`: its source is not read, and the run completes
with the text if the selected parser could have answered it and fails otherwise. -/
structure ParsesTo (codec : Codec) (s : CorrectionStore) (document : IngestedDocument)
    (text : ParsedDocument) : Prop where
  unread : ∀ display selected parse completing failing runId version,
    parseStartedDocument codec display { selected with parse := parse } completing failing runId
      version document s =
    parseStartedDocument codec display selected completing failing runId version document s
  completes : ∀ display selected completing failing runId version parsed t,
    parseStartedDocument codec display selected completing failing runId version document s =
      (.ok parsed, t) ↔
    parsed = text ∧ Parser.validateParsedDocument text document selected = .ok () ∧
      t.corrections = s.corrections ∧ getParsedDocument t.pipeline runId = some text ∧
      ∃ result, completeParsing codec completing runId version text
        (text.warnings ++ text.pages.flatMap (·.warnings)) s.pipeline = .ok (result, t.pipeline)
  refused : ∀ display selected completing failing runId version failure,
    Parser.validateParsedDocument text document selected = .error failure →
    parseStartedDocument codec display selected completing failing runId version document s =
      persistParserFailure failing runId version failure s

theorem completeParsing_stores {runId : String} {version : Nat} {parsed : ParsedDocument}
    {warnings : List PipelineWarning} {s t : Store} {result : PipelineRun}
    (h : completeParsing codec amb runId version parsed warnings s = .ok (result, t)) :
    getParsedDocument t runId = some parsed := by
  simp only [completeParsing, completeStage, insertParsedDocument, peel_ok] at h
  obtain ⟨_, -, u, inserted, completed⟩ := h
  obtain ⟨-, -, -, rfl⟩ := insertArtifact_ok.mp inserted
  simp only [getParsedDocument, (transitionInTx_row completed).2, Store.setArtifact,
    Function.update_self, AList.lookup_insert, Option.map_some]
  rfl

theorem parsesTo_of_loaded {text : ParsedDocument}
    (loaded : loadForDocument codec s document.documentId = .ok (some text)) :
    ParsesTo codec s document text := by
  have output : ∀ display selected, parserOutput codec display selected s document = .ok text := by
    intro display selected
    simp only [parserOutput, loaded]
  refine ⟨fun display selected parse completing failing runId version => ?_,
    fun display selected completing failing runId version parsed t => ?_,
    fun display selected completing failing runId version failure invalid => ?_⟩
  · simp only [parseStartedDocument, output]
    rfl
  · simp only [parseStartedDocument, output]
    cases valid : Parser.validateParsedDocument text document selected with
    | error failure =>
        simp only [persistParserFailure]
        split <;> simp
    | ok _ =>
        cases completed : completeParsing codec completing runId version text
            (text.warnings ++ text.pages.flatMap (·.warnings)) s.pipeline with
        | error persistence =>
            simp only []
            split <;> simp
        | ok result =>
            have stored := completeParsing_stores completed
            constructor
            · rintro ⟨⟩
              exact ⟨rfl, rfl, rfl, stored, result.1, rfl⟩
            · rintro ⟨rfl, -, same, -, answer, answered⟩
              cases t
              cases answered
              cases same
              rfl
  · simp only [parseStartedDocument, output, invalid]

/-! ## Runs from the empty store -/

def correctionsAfter (codec : Codec) (calls : List CorrectionCall) : CorrectionStore :=
  calls.foldl (fun s call => call.after codec s) .empty

theorem reachable_correctionsAfter (calls : List CorrectionCall) :
    (correctionMachine codec).Reachable (correctionsAfter codec calls) :=
  ⟨_, calls, rfl, .foldl (fun _ _ => rfl) _ calls⟩

end Records

/-! ## Main results -/

/-- One run corrects another. -/
def CorrectedFrom (s : CorrectionStore) (run source : String) : Prop :=
  ∃ row ∈ s.corrections, row.runId = run ∧ row.sourceRunId = source

/-- Whatever was corrected, and whatever else happened: a document has one correction and a
correction one run and one document, each row tells what it corrected, no run is its own
correction, and a corrected document is parsed to its corrected text, which a parser accepts
that accepted the text it corrects. -/
theorem corrections_hold {codec : Codec} {s : CorrectionStore}
    (reach : (correctionMachine codec).Reachable s) :
    ((s.corrections.map (·.documentId)).Nodup ∧ (s.corrections.map (·.runId)).Nodup ∧
      (s.corrections.map (·.sourceDocumentId)).Nodup) ∧
    (∀ row ∈ s.corrections, HoldsCorrection codec s.pipeline row) ∧
    (∀ row ∈ s.corrections, ∀ document, document.documentId = row.documentId →
      ParsesTo codec s document row.correctedParsed ∧
      ∀ selected source text, getParsedDocument s.pipeline row.sourceRunId = some text →
        document.sourceType = source.sourceType →
        Parser.validateParsedDocument text source selected = .ok () →
        Parser.validateParsedDocument row.correctedParsed document selected = .ok ()) ∧
    (∀ runId, ¬ Relation.TransGen (CorrectedFrom s) runId runId) := by
  have history := history_of_reachable reach
  refine ⟨⟨history.documents, history.runs, history.sources⟩, history.rows, ?_, ?_⟩
  · intro row mem document same
    refine ⟨parsesTo_of_loaded (same ▸ history.loadForDocument_eq mem), ?_⟩
    intro selected source text read provenance accepted
    obtain ⟨parsed, changes, corrected, read', -, -, applies, recorded⟩ :=
      (history.rows row mem).corrects
    obtain rfl : text = parsed := Option.some.inj (read.symm.trans read')
    rw [recorded, ← same]
    exact corrected_accepted applies provenance accepted
  · intro runId cycle
    obtain ⟨rank, ranked⟩ := history.ranked
    have falls := cycle.lift (p := (· > ·)) rank fun run source link => by
      obtain ⟨row, mem, rfl, rfl⟩ := link
      exact ranked row mem
    rw [Relation.transGen_eq_self] at falls
    exact Nat.lt_irrefl _ falls

/-- The pages of a scan as they were read. -/
def scannedText : ParsedDocument where
  documentId := "document"
  parserId := "tesseract"
  parserVersion := "5"
  sourceType := .ocrText
  pages := [⟨1, "Tota1 due", [], false⟩, ⟨2, "Thirty days", [], false⟩]
  warnings := []

def scannedCalls : List CorrectionCall :=
  (sampleCalls [
    .persistIngestion { sampleDocument with sourceType := .ocrText }
      (prepareReceivedRun "root" "document" 0) (some sampleModelProfile) .general,
    .startParsing "root" 3,
    .completeParsing "root" 4 scannedText []]).map .pipeline

def sampleCorrection : SaveCorrection :=
  ⟨"root", 5, "parsed", [⟨1, "Total due"⟩]⟩

theorem correction_of_a_scan_holds :
    (∃ row ∈ (correctionsAfter sampleCodec (scannedCalls ++
        [.save (sampleAmbient 9) sampleCorrection])).corrections, row.sourceRunId = "root") ∧
      ∀ runId, ¬ Relation.TransGen (CorrectedFrom (correctionsAfter sampleCodec
        (scannedCalls ++ [.save (sampleAmbient 9) sampleCorrection]))) runId runId := by
  refine ⟨by decide +kernel, ?_⟩
  exact (corrections_hold (reachable_correctionsAfter _)).2.2.2

/-- A granted correction touches nothing of a run that there was. From then on its text stays,
nobody who asks about a run of the same document changes anything, and the same request gets
the same run for as long as its source has not moved. -/
theorem correction_is_made_once {codec : Codec} {amb : Ambient} {request : SaveCorrection}
    {s t u : CorrectionStore} {run : PipelineRun} {calls : List CorrectionCall}
    (reach : (correctionMachine codec).Reachable s)
    (granted : save codec amb request s = .ok (run, t))
    (later : (correctionMachine codec).Run t calls u) :
    ((∀ other, getPipelineRun s.pipeline other ≠ none →
        t.pipeline.storedFor other = s.pipeline.storedFor other) ∧
      t.pipeline.beside = s.pipeline.beside ∧ s.corrections <+: t.corrections ∧
      ∀ documentId document, getDocument s.pipeline documentId = some document →
        getDocument t.pipeline documentId = some document) ∧
    ∃ source parsed corrected, getPipelineRun s.pipeline request.runId = some source ∧
      getParsedDocument s.pipeline request.runId = some parsed ∧
      applyPages parsed request.pages = .ok corrected ∧
      getParsedDocument u.pipeline run.runId =
        some { corrected with documentId := run.documentId } ∧
      (∀ amb' request' other, getPipelineRun u.pipeline request'.runId = some other →
        other.documentId = source.documentId →
        (CorrectionCall.save amb' request').after codec u = u) ∧
      (∀ amb' source', correctionSource u.pipeline request.runId = .ok source' →
        source'.1.stateVersion = request.expectedStateVersion →
        ∃ current, save codec amb' request u = .ok (current, u) ∧
          getPipelineRun u.pipeline run.runId = some current) := by
  have history := history_of_reachable reach
  obtain ⟨document, parsed, corrected, row, requested, mem, document_eq, source_eq, found, text⟩ :=
    history.saved_row granted
  obtain ⟨before, asked, -⟩ := requested.source
  obtain ⟨there, ofDocument, read, -, owned⟩ := correctionSource_ok asked
  obtain ⟨history_t, grown, prior⟩ := corrections_grow history (.single (saved_after granted).symm)
  obtain ⟨history_u, grown', kept⟩ := corrections_grow history_t later
  have mem' : row ∈ u.corrections := kept.subset mem
  have key : run.runId = row.runId := getPipelineRun_runId found
  have both := grown.trans grown'
  have framed := save_frame granted
  refine ⟨⟨framed.1, framed.2, prior, grown.documents⟩, before, parsed, corrected, there, read,
    requested.applies, ?_, ?_, ?_⟩
  · have stored := (history_u.rows row mem').parsed
    obtain ⟨run', found', document'⟩ := (history_t.rows row mem).successor
    obtain rfl : run = run' := Option.some.inj (found.symm.trans found')
    rw [key, document', ← text]
    exact stored
  · intro amb' request' other known same
    refine history_u.save_kept mem' known ?_ document_eq
    rw [same]
    exact both.documents _ _ ofDocument
  · rintro amb' ⟨run', document', parsed'⟩ asked' version
    obtain ⟨-, -, known, -, owned'⟩ := correctionSource_ok asked'
    obtain rfl : parsed = parsed' := Option.some.inj ((both.parsed read).symm.trans known)
    obtain ⟨current, found', -⟩ := (grown'.rows row.runId).row run found
    have listed := (find_eq_some_iff history_u.sources).mpr ⟨mem', document_eq⟩
    refine ⟨current, save_ok.mpr ⟨document', parsed, corrected,
      ⟨⟨run', asked', version⟩, requested.hashed, requested.applies⟩, .inl ⟨row, ?_, ?_, rfl⟩⟩,
      key ▸ found'⟩
    · rw [← owned', owned]
      exact listed
    · exact (history_u.answerExisting_ok mem').mpr ⟨source_eq, text.symm, found'⟩

/-- The corrected run starts, and another correction of the scan is asked for. -/
def laterCalls : List CorrectionCall :=
  [.pipeline ⟨sampleAmbient 10, .startNormalizing ((sampleAmbient 9).newV4 6) 5⟩,
    .save (sampleAmbient 11) { sampleCorrection with pages := [⟨2, "Sixty days"⟩] }]

def correctedScan : CorrectionStore :=
  laterCalls.foldl (fun s call => call.after sampleCodec s)
    ((CorrectionCall.save (sampleAmbient 9) sampleCorrection).after sampleCodec
      (correctionsAfter sampleCodec scannedCalls))

theorem correction_of_a_scan_is_made_once :
    ∃ run t current, save sampleCodec (sampleAmbient 9) sampleCorrection
        (correctionsAfter sampleCodec scannedCalls) = .ok (run, t) ∧
      (correctionMachine sampleCodec).Run t laterCalls correctedScan ∧
      (getParsedDocument correctedScan.pipeline run.runId).map (·.pages.map (·.text)) =
        some ["Total due", "Thirty days"] ∧
      save sampleCodec (sampleAmbient 12) sampleCorrection correctedScan =
        .ok (current, correctedScan) ∧
      getPipelineRun correctedScan.pipeline run.runId = some current := by
  obtain ⟨⟨run, t⟩, granted⟩ := exists_ok (show (save sampleCodec (sampleAmbient 9)
    sampleCorrection (correctionsAfter sampleCodec scannedCalls)).isOk = true by decide +kernel)
  have moves : (correctionMachine sampleCodec).Run t laterCalls correctedScan := by
    rw [correctedScan, saved_after granted]
    exact .foldl (fun _ _ => rfl) t laterCalls
  obtain ⟨-, _, parsed, corrected, -, read, applies, stored, -, again⟩ :=
    correction_is_made_once (reachable_correctionsAfter scannedCalls) granted moves
  have scanned : getParsedDocument (correctionsAfter sampleCodec scannedCalls).pipeline "root" =
      some scannedText := by decide +kernel
  obtain rfl : parsed = scannedText := Option.some.inj (read.symm.trans scanned)
  have texts : (applyPages scannedText sampleCorrection.pages).map (·.pages.map (·.text)) =
      .ok ["Total due", "Thirty days"] := by decide +kernel
  rw [applies] at texts
  have source : (correctionSource correctedScan.pipeline "root").map (·.1.stateVersion) =
      .ok 5 := by decide +kernel
  cases asked : correctionSource correctedScan.pipeline sampleCorrection.runId with
  | error e =>
      rw [show correctionSource correctedScan.pipeline "root" = .error e from asked] at source
      cases source
  | ok source' =>
      rw [show correctionSource correctedScan.pipeline "root" = .ok source' from asked] at source
      obtain ⟨current, answered, found⟩ := again (sampleAmbient 12) source' asked
        (Except.ok.inj source)
      refine ⟨run, t, current, granted, moves, ?_, answered, found⟩
      rw [stored]
      exact congrArg some (Except.ok.inj texts)

end DocumentSummarizer.Pipeline
