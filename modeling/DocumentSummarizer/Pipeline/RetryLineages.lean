import DocumentSummarizer.Pipeline.CompletedWork

/-! # Retry lineages

A failed run may be retried by a new run over the same document.  The retries of the store
form chains: a run has one retry at most, none is its own ancestor, and every member has the
document and the profiles of the run it retries.
-/

namespace DocumentSummarizer.Pipeline

open Library

/-! ## What the other statements leave alone -/

/-- The tables that no run is entered in when it is created. -/
def Store.beside (s : Store) :=
  (s.pipelineRunRetries, s.profileSuggestionRequests, s.ocrHandoffs, s.ocrLineage)

/-- The documents, the profiles and the tables beside them did not change. -/
structure SameLineages (s t : Store) : Prop where
  documents : t.documents = s.documents
  models : t.modelProfiles = s.modelProfiles
  summaries : t.summaryProfiles = s.summaryProfiles
  beside : t.beside = s.beside

/-- The lineages did not change, and no document or profile did; there may be more of these. -/
structure Retains (s t : Store) : Prop where
  documents : ∀ documentId document, getDocument s documentId = some document →
    getDocument t documentId = some document
  retries : t.pipelineRunRetries = s.pipelineRunRetries
  models : ∀ runId snapshot, getRunModelProfile s runId = some snapshot →
    getRunModelProfile t runId = some snapshot
  summaries : ∀ runId profile, getRunSummaryProfile s runId = some profile →
    getRunSummaryProfile t runId = some profile

/-- Only documents and the profiles of one run are new. -/
structure Profiled (runId : String) (s t : Store) : Prop where
  retains : Retains s t
  models : ∀ other ≠ runId, getRunModelProfile t other = getRunModelProfile s other
  summaries : ∀ other ≠ runId, getRunSummaryProfile t other = getRunSummaryProfile s other
  beside : t.beside = s.beside

namespace SameLineages

theorem refl (s : Store) : SameLineages s s :=
  ⟨rfl, rfl, rfl, rfl⟩

theorem trans {s t u : Store} (left : SameLineages s t) (right : SameLineages t u) :
    SameLineages s u :=
  ⟨right.documents.trans left.documents, right.models.trans left.models,
    right.summaries.trans left.summaries, right.beside.trans left.beside⟩

theorem retries {s t : Store} (same : SameLineages s t) :
    t.pipelineRunRetries = s.pipelineRunRetries :=
  congrArg Prod.fst same.beside

theorem retains {s t : Store} (same : SameLineages s t) : Retains s t where
  documents documentId document found := by rwa [getDocument, same.documents]
  retries := same.retries
  models runId snapshot found := by rwa [getRunModelProfile, same.models]
  summaries runId profile found := by rwa [getRunSummaryProfile, same.summaries]

theorem profiled {s t : Store} (same : SameLineages s t) (runId : String) : Profiled runId s t where
  retains := same.retains
  models other _ := congrArg (AList.lookup other) same.models
  summaries other _ := congrArg (AList.lookup other) same.summaries
  beside := same.beside

end SameLineages

theorem Retains.trans {s t u : Store} (left : Retains s t) (right : Retains t u) :
    Retains s u where
  documents documentId document found :=
    right.documents documentId document (left.documents documentId document found)
  retries := right.retries.trans left.retries
  models runId snapshot found := right.models runId snapshot (left.models runId snapshot found)
  summaries runId profile found :=
    right.summaries runId profile (left.summaries runId profile found)

theorem Profiled.trans {runId : String} {s t u : Store} (left : Profiled runId s t)
    (right : Profiled runId t u) : Profiled runId s u where
  retains := left.retains.trans right.retains
  models other ne := (right.models other ne).trans (left.models other ne)
  summaries other ne := (right.summaries other ne).trans (left.summaries other ne)
  beside := right.beside.trans left.beside

theorem lookup_insert_of_absent {β : Type} {table : Table β} {key other : String} {old new : β}
    (absent : key ∉ table) (found : table.lookup other = some old) :
    (table.insert key new).lookup other = some old := by
  have ne : other ≠ key := by
    rintro rfl
    rw [AList.lookup_eq_none.mpr absent] at found
    cases found
  exact (AList.lookup_insert_ne ne).trans found

theorem GivesProfile.profiled {runId : String} {s t : Store} (gives : GivesProfile runId s t) :
    Profiled runId s t := by
  cases gives with
  | kept => exact (SameLineages.refl s).profiled runId
  | model snapshot absent =>
      exact ⟨⟨fun _ _ => id, rfl, fun _ _ => lookup_insert_of_absent absent, fun _ _ => id⟩,
        fun _ => AList.lookup_insert_ne, fun _ _ => rfl, rfl⟩
  | summary profile absent =>
      exact ⟨⟨fun _ _ => id, rfl, fun _ _ => id, fun _ _ => lookup_insert_of_absent absent⟩,
        fun _ _ => rfl, fun _ => AList.lookup_insert_ne, rfl⟩

section Statements

variable {codec : Codec} {amb : Ambient} {s t : Store} {runId : String}

theorem insertDocument_profiled {document} (h : insertDocument s document = .ok t) :
    Profiled runId s t := by
  obtain ⟨-, absent, rfl⟩ := insertDocument_ok.mp h
  exact ⟨⟨fun _ _ => lookup_insert_of_absent absent, rfl, fun _ _ => id, fun _ _ => id⟩,
    fun _ _ => rfl, fun _ _ => rfl, rfl⟩

theorem transitionInTx_lineages {reading expected version next stage reason patch}
    {result : PipelineRun}
    (h : transitionInTx amb reading s runId expected version next stage reason patch =
      .ok (result, t)) : SameLineages s t := by
  obtain ⟨_, -, -, -, -, -, -, -, -, rfl⟩ := transitionInTx_ok.mp h
  exact ⟨rfl, rfl, rfl, rfl⟩

theorem insertArtifact_lineages {kind : ArtifactKind} {artifact : kind.Artifact}
    (h : insertArtifact codec s kind runId artifact = .ok t) : SameLineages s t := by
  obtain ⟨-, -, -, rfl⟩ := insertArtifact_ok.mp h
  exact ⟨rfl, rfl, rfl, rfl⟩

theorem insertSynthesisWithAttempt_lineages {synthesized}
    (h : insertSynthesisWithAttempt codec runId synthesized s = .ok t) : SameLineages s t := by
  obtain ⟨-, -, rfl⟩ := insertSynthesisWithAttempt_ok h
  exact ⟨rfl, rfl, rfl, rfl⟩

theorem insertVerificationAttempt_lineages {ordinal verified}
    (h : insertVerificationAttempt codec s runId ordinal verified = .ok t) :
    SameLineages s t := by
  obtain ⟨-, -, -, -, rfl⟩ := insertVerificationAttempt_ok.mp h
  exact ⟨rfl, rfl, rfl, rfl⟩

theorem insertVerificationWithAttempt_lineages {ordinal verified}
    (h : insertVerificationWithAttempt codec runId ordinal verified s = .ok t) :
    SameLineages s t := by
  obtain ⟨-, -, -, -, rfl⟩ := insertVerificationWithAttempt_ok h
  exact ⟨rfl, rfl, rfl, rfl⟩

theorem updateOcrHandoffs_retains {selected change changed}
    (h : updateOcrHandoffs codec s selected change = .ok (changed, t)) : Retains s t := by
  simp only [updateOcrHandoffs, peel_ok, refuseIf_eq_ok, return_ok, exists_const] at h
  obtain ⟨-, -, h⟩ := h
  obtain ⟨-, rfl⟩ := Prod.mk.inj h
  exact ⟨fun _ _ => id, rfl, fun _ _ => id, fun _ _ => id⟩

theorem insertOcrLineage_retains {handoff} (h : insertOcrLineage s handoff = .ok t) :
    Retains s t := by
  simp only [insertOcrLineage, peel_ok, okOrElse_eq_ok, refuseIf_eq_ok, return_ok,
    exists_const] at h
  obtain ⟨_, -, -, -, -, rfl⟩ := h
  exact ⟨fun _ _ => id, rfl, fun _ _ => id, fun _ _ => id⟩

theorem persistReceivedRunToIngested_lineages {run creationReason reason result}
    (h : persistReceivedRunToIngested amb s run creationReason reason = .ok (result, t)) :
    SameLineages s t ∧ result.runId = run.runId := by
  simp only [persistReceivedRunToIngested, peel_ok] at h
  obtain ⟨u, row, w, event, ⟨ingesting, x⟩, started, finished⟩ := h
  obtain ⟨-, -, -, -, rfl⟩ := insertPipelineRun_ok.mp row
  obtain ⟨-, rfl⟩ := insertPipelineEvent_ok.mp event
  have start := transitionInTx_lineages started
  exact ⟨SameLineages.trans ⟨start.documents, start.models, start.summaries, start.beside⟩
    (transitionInTx_lineages finished), transitionInTx_runId finished⟩

theorem persistIngestionInTransaction_profiles {document run profile result}
    (h : persistIngestionInTransaction amb s document run profile = .ok (result, t)) :
    Profiled run.runId s t ∧ result.runId = run.runId := by
  simp only [persistIngestionInTransaction, peel_ok, refuseIf_eq_ok, return_ok, exists_const] at h
  obtain ⟨-, u, inserted, ⟨ingested, w⟩, persisted, x, profiled, h⟩ := h
  obtain ⟨rfl, rfl⟩ := Prod.mk.inj h
  obtain ⟨created, key⟩ := persistReceivedRunToIngested_lineages persisted
  have kept := (insertDocument_profiled inserted).trans (created.profiled run.runId)
  exact ⟨kept.trans (key ▸ (ensureRunSummaryProfile_gives profiled).profiled), key⟩

end Statements

/-! ## What the other operations leave alone -/

section Operations

variable {codec : Codec} {amb : Ambient} {s t : Store} {runId : String} {version : Nat}

theorem startStage_lineages {α : Type} {load : Store → String → Except StoreError α} {source target}
    {stage result} (h : startStage load source target stage amb runId version s =
      .ok (result, t)) : SameLineages s t := by
  simp only [startStage, peel_ok, return_ok] at h
  obtain ⟨input, -, ⟨run, u⟩, moved, h⟩ := h
  obtain ⟨-, rfl⟩ := Prod.mk.inj h
  exact transitionInTx_lineages moved

theorem completeStage_lineages {kind : ArtifactKind} {insert : Store → Except StoreError Store}
    {source target stage warnings result} {artifact : kind.Artifact}
    (inserts : ∀ {s t}, insert s = .ok t → SameLineages s t)
    (h : completeStage kind insert source target stage amb runId version artifact warnings s =
      .ok (result, t)) : SameLineages s t := by
  simp only [completeStage, peel_ok] at h
  obtain ⟨_, -, u, inserted, moved⟩ := h
  exact (inserts inserted).trans (transitionInTx_lineages moved)

theorem recordVerificationAttempt_lineages {ordinal verified result}
    (h : recordVerificationAttempt codec runId version ordinal verified s = .ok (result, t)) :
    SameLineages s t := by
  simp only [recordVerificationAttempt, peel_ok, return_ok] at h
  obtain ⟨_, -, _, -, _, -, u, attempted, h⟩ := h
  obtain ⟨-, rfl⟩ := Prod.mk.inj h
  exact insertVerificationAttempt_lineages attempted

theorem completeSummary_lineages {summary citations result}
    (h : completeSummary codec amb runId version summary citations s = .ok (result, t)) :
    SameLineages s t := by
  simp only [completeSummary, insertSummaryArtifact, insertCitationArtifact, peel_ok,
    refuseIf_eq_ok, exists_const] at h
  obtain ⟨_, -, _, -, -, u, ⟨-, summarized⟩, w, ⟨-, cited⟩, moved⟩ := h
  exact ((insertArtifact_lineages summarized).trans (insertArtifact_lineages cited)).trans
    (transitionInTx_lineages moved)

theorem requestCancellation_lineages {result}
    (h : requestCancellation amb runId version s = .ok (result, t)) : SameLineages s t := by
  simp only [requestCancellation, peel_ok] at h
  obtain ⟨run, -, _, -, moved⟩ := h
  exact transitionInTx_lineages moved

theorem completeCancellation_lineages {result}
    (h : completeCancellation amb runId version s = .ok (result, t)) : SameLineages s t := by
  simp only [completeCancellation, peel_ok] at h
  obtain ⟨run, -, _, -, moved⟩ := h
  exact transitionInTx_lineages moved

theorem failBackgroundExecution_lineages {expected failure result}
    (h : failBackgroundExecution amb runId expected version failure s = .ok (result, t)) :
    SameLineages s t := by
  simp only [failBackgroundExecution, peel_ok] at h
  obtain ⟨run, -, h⟩ := h
  split at h
  · simp only [peel_ok] at h
    obtain ⟨_, -, moved⟩ := h
    exact transitionInTx_lineages moved
  · simp only [peel_ok] at h
    obtain ⟨_, -, moved⟩ := h
    exact transitionInTx_lineages moved

theorem reconcileInterruptedRun_lineages {reading candidate result}
    (h : reconcileInterruptedRun amb reading candidate s = .ok (result, t)) :
    SameLineages s t := by
  simp only [reconcileInterruptedRun] at h
  split at h
  · simp only [peel_ok] at h
    obtain ⟨stage, -, _, -, moved⟩ := h
    exact transitionInTx_lineages moved
  · simp only [peel_ok] at h
    obtain ⟨_, -, run, -, _, -, moved⟩ := h
    exact transitionInTx_lineages moved

theorem reconcileInterruptedRuns_lineages {reading candidates result}
    (h : reconcileInterruptedRunsInTransaction amb reading candidates s = .ok (result, t)) :
    SameLineages s t := by
  induction candidates generalizing reading s result with
  | nil =>
      obtain ⟨-, rfl⟩ := Prod.mk.inj (Except.ok.inj h)
      exact SameLineages.refl s
  | cons candidate rest ih =>
      simp only [reconcileInterruptedRunsInTransaction, peel_ok, return_ok] at h
      obtain ⟨⟨run, u⟩, first, ⟨runs, w⟩, others, h⟩ := h
      obtain ⟨-, rfl⟩ := Prod.mk.inj h
      exact (reconcileInterruptedRun_lineages first).trans (ih others)

theorem persistIngestionWithProfiles_profiles {document run snapshot profile result}
    (h : persistIngestionWithProfiles amb document run snapshot profile s = .ok (result, t)) :
    Profiled run.runId s t := by
  simp only [persistIngestionWithProfiles, peel_ok, return_ok] at h
  obtain ⟨-, -, ⟨ingested, u⟩, persisted, w, profiled, h⟩ := h
  obtain ⟨-, rfl⟩ := Prod.mk.inj h
  obtain ⟨created, key⟩ := persistIngestionInTransaction_profiles persisted
  exact created.trans (key ▸ (ensureRunModelProfile_gives profiled).profiled)

theorem persistCorrectedDocument_profiles {document run parsed source result}
    (h : persistCorrectedDocument codec amb document run parsed source s = .ok (result, t)) :
    Profiled run.runId s t := by
  simp only [persistCorrectedDocument, peel_ok] at h
  obtain ⟨profile, -, ⟨ingested, u⟩, persisted, w, profiled, ⟨parsing, x⟩, started, y, inserted,
    completed⟩ := h
  have begun := (persistIngestionInTransaction_profiles persisted).1.trans
    (ensureRunModelProfile_gives profiled).profiled
  have parsed := (transitionInTx_lineages started).trans (insertArtifact_lineages inserted)
  exact begun.trans ((parsed.trans (transitionInTx_lineages completed)).profiled run.runId)

theorem prepareOcrHandoff_retains {admission result}
    (h : prepareOcrHandoff codec admission s = .ok (result, t)) : Retains s t := by
  simp only [prepareOcrHandoff] at h
  split at h
  · obtain ⟨-, rfl⟩ := Prod.mk.inj (Except.ok.inj h)
    exact (SameLineages.refl s).retains
  · simp only [insertOcrHandoff, peel_ok, refuseIf_eq_ok, return_ok, exists_const] at h
    obtain ⟨_, -, _, -, _, -, -, u, ⟨-, -, -, -, rfl⟩, _, -, h⟩ := h
    obtain ⟨-, rfl⟩ := Prod.mk.inj h
    exact ⟨fun _ _ => id, rfl, fun _ _ => id, fun _ _ => id⟩

theorem markOcrHandoffCompletedForChild_retains {result}
    (h : markOcrHandoffCompletedForChild codec runId s = .ok (result, t)) : Retains s t := by
  simp only [markOcrHandoffCompletedForChild, peel_ok] at h
  obtain ⟨run, -, h⟩ := h
  split at h
  · obtain ⟨-, rfl⟩ := Prod.mk.inj (return_ok.mp h)
    exact (SameLineages.refl s).retains
  · simp only [peel_ok, return_ok] at h
    obtain ⟨⟨changed, u⟩, updated, h⟩ := h
    obtain ⟨-, rfl⟩ := Prod.mk.inj h
    exact updateOcrHandoffs_retains updated

theorem admitOcrChild_retains {handoff document run result}
    (h : admitOcrChild codec amb handoff document run s = .ok (result, t)) : Retains s t := by
  simp only [admitOcrChild, peel_ok] at h
  obtain ⟨current, -, pdf, -, h⟩ := h
  split at h
  · simp only [peel_ok, return_ok] at h
    obtain ⟨child, -, h⟩ := h
    obtain ⟨-, rfl⟩ := Prod.mk.inj h
    exact (SameLineages.refl s).retains
  · simp only [admitNewOcrChild, peel_ok, refuseIf_eq_ok, return_ok, exists_const] at h
    obtain ⟨-, profile, -, ⟨ingested, u⟩, persisted, ⟨copied, w⟩, copy, -, root, -, ⟨_, x⟩,
      failed, y, lineage, ⟨changed, z⟩, updated, -, h⟩ := h
    obtain ⟨-, rfl⟩ := Prod.mk.inj h
    have admitted := (persistIngestionInTransaction_profiles persisted).1.retains.trans
      (copyModelProfile_gives copy).profiled.retains
    have linked := (transitionInTx_lineages failed).retains.trans
      (insertOcrLineage_retains lineage)
    exact admitted.trans (linked.trans (updateOcrHandoffs_retains updated))

theorem rewindInterruptedOcrChild_lineages {result}
    (h : rewindInterruptedOcrChild amb runId s = .ok (result, t)) : SameLineages s t := by
  simp only [rewindInterruptedOcrChild, peel_ok] at h
  obtain ⟨_, -, run, -, _, -, h⟩ := h
  split at h
  · obtain ⟨-, rfl⟩ := Prod.mk.inj (return_ok.mp h)
    exact SameLineages.refl s
  · exact transitionInTx_lineages h

theorem getOrCreateProfileSuggestionOwner_retains {hash contract result}
    (h : getOrCreateProfileSuggestionOwner amb hash contract s = .ok (result, t)) :
    Retains s t := by
  simp only [getOrCreateProfileSuggestionOwner, peel_ok] at h
  obtain ⟨-, -, h⟩ := h
  split at h
  · simp only [peel_ok, refuseIf_eq_ok, return_ok, exists_const] at h
    obtain ⟨-, rfl⟩ := Prod.mk.inj h.2
    exact (SameLineages.refl s).retains
  · simp only [peel_ok, refuseIf_eq_ok, return_ok, exists_const] at h
    obtain ⟨-, rfl⟩ := Prod.mk.inj h.2
    exact ⟨fun _ _ => id, rfl, fun _ _ => id, fun _ _ => id⟩

theorem move_lineages {op : Operation} {moved : String × Nat × Move}
    (makes : op.move? = some moved) (h : op.body codec amb s = .ok ((), t)) :
    SameLineages s t := by
  cases op with
  | startParsing | startNormalizing | startStructuring | startChunking | startAnalysis
  | startSynthesis | startVerification =>
      obtain ⟨_, h⟩ := discardResult_ok.mp h
      exact startStage_lineages h
  | completeParsing | completeNormalization | completeStructuring | completeChunking
  | completeAnalysis =>
      obtain ⟨_, h⟩ := discardResult_ok.mp h
      exact completeStage_lineages insertArtifact_lineages h
  | completeSynthesis =>
      obtain ⟨_, h⟩ := discardResult_ok.mp h
      exact completeStage_lineages insertSynthesisWithAttempt_lineages h
  | completeVerification =>
      obtain ⟨_, h⟩ := discardResult_ok.mp h
      exact completeStage_lineages insertVerificationWithAttempt_lineages h
  | completeSummary =>
      obtain ⟨_, h⟩ := discardResult_ok.mp h
      exact completeSummary_lineages h
  | failParsing | failNormalization | failStructuring | failChunking | failAnalysis
  | failSynthesis | failVerification | failSummary =>
      obtain ⟨_, h⟩ := discardResult_ok.mp h
      exact transitionInTx_lineages h
  | completeCancellation =>
      obtain ⟨_, h⟩ := discardResult_ok.mp h
      exact completeCancellation_lineages h
  | _ => cases makes

/-- Only a retry adds a lineage, and nothing changes a profile. -/
theorem body_retains {op : Operation} (h : op.body codec amb s = .ok ((), t)) :
    (∃ source version run, op = .createRetryRun source version run) ∨ Retains s t := by
  cases op with
  | createRetryRun source version run => exact .inl ⟨source, version, run, rfl⟩
  | persistIngestion document run snapshot profile =>
      obtain ⟨_, h⟩ := discardResult_ok.mp h
      exact .inr (persistIngestionWithProfiles_profiles h).retains
  | persistCorrectedDocument document run parsed source =>
      obtain ⟨_, h⟩ := discardResult_ok.mp h
      exact .inr (persistCorrectedDocument_profiles h).retains
  | ensureRunModelProfile runId snapshot =>
      exact .inr (ensureRunModelProfile_gives (map_unit_ok h)).profiled.retains
  | ensureRunSummaryProfile runId profile =>
      exact .inr (ensureRunSummaryProfile_gives (map_unit_ok h)).profiled.retains
  | startParsing | startNormalizing | startStructuring | startChunking | startAnalysis
  | startSynthesis | startVerification | completeParsing | completeNormalization
  | completeStructuring | completeChunking | completeAnalysis | completeSynthesis
  | completeVerification | completeSummary | failParsing | failNormalization | failStructuring
  | failChunking | failAnalysis | failSynthesis | failVerification | failSummary
  | completeCancellation =>
      exact .inr (move_lineages rfl h).retains
  | recordVerificationAttempt runId version ordinal verified =>
      exact .inr (recordVerificationAttempt_lineages h).retains
  | requestCancellation runId version =>
      obtain ⟨_, h⟩ := discardResult_ok.mp h
      exact .inr (requestCancellation_lineages h).retains
  | failBackgroundExecution runId expected version failure =>
      obtain ⟨_, h⟩ := discardResult_ok.mp h
      exact .inr (failBackgroundExecution_lineages h).retains
  | reconcileInterruptedRunsInTransaction interrupted =>
      obtain ⟨_, h⟩ := discardResult_ok.mp h
      exact .inr (reconcileInterruptedRuns_lineages h).retains
  | reconcileInterruptedRuns =>
      obtain ⟨_, h⟩ := discardResult_ok.mp h
      exact .inr (reconcileInterruptedRuns_lineages h).retains
  | prepareOcrHandoff admission =>
      obtain ⟨_, h⟩ := discardResult_ok.mp h
      exact .inr (prepareOcrHandoff_retains h)
  | transitionOcrHandoff handoffId expected next status =>
      obtain ⟨_, h⟩ := discardResult_ok.mp h
      simp only [transitionOcrHandoff, peel_ok, return_ok] at h
      obtain ⟨⟨changed, u⟩, updated, h⟩ := h
      obtain ⟨-, rfl⟩ := Prod.mk.inj h
      exact .inr (updateOcrHandoffs_retains updated)
  | storeOcrOutputs handoffId expected output =>
      obtain ⟨_, h⟩ := discardResult_ok.mp h
      simp only [storeOcrOutputs, peel_ok, return_ok] at h
      obtain ⟨⟨changed, u⟩, updated, h⟩ := h
      obtain ⟨-, rfl⟩ := Prod.mk.inj h
      exact .inr (updateOcrHandoffs_retains updated)
  | failOcrHandoff handoffId expected code message retryable =>
      obtain ⟨_, h⟩ := discardResult_ok.mp h
      simp only [failOcrHandoff, peel_ok, return_ok] at h
      obtain ⟨⟨changed, u⟩, updated, h⟩ := h
      obtain ⟨-, rfl⟩ := Prod.mk.inj h
      exact .inr (updateOcrHandoffs_retains updated)
  | admitOcrChild handoff document run =>
      obtain ⟨_, h⟩ := discardResult_ok.mp h
      exact .inr (admitOcrChild_retains h)
  | markOcrHandoffCompletedForChild childRunId =>
      obtain ⟨_, h⟩ := discardResult_ok.mp h
      exact .inr (markOcrHandoffCompletedForChild_retains h)
  | rewindInterruptedOcrChild childRunId =>
      obtain ⟨_, h⟩ := discardResult_ok.mp h
      exact .inr (rewindInterruptedOcrChild_lineages h).retains
  | getOrCreateProfileSuggestionOwner hash contract =>
      obtain ⟨_, h⟩ := discardResult_ok.mp h
      exact .inr (getOrCreateProfileSuggestionOwner_retains h)

end Operations

/-! ## Creating a retry -/

/-- What a retry that is created finds, and what it adds to the lineages and the profiles. -/
structure Retried (source : String) (retryRun : PipelineRun) (s t : Store) : Prop where
  unretried : getRetryLineageForSource s source = none
  failed : ∃ sourceRun, getPipelineRun s source = some sourceRun ∧ sourceRun.state = .failed ∧
    retryRun.documentId = sourceRun.documentId
  created : ∃ row, getPipelineRun t retryRun.runId = some row
  documents : t.documents = s.documents
  retries : ∃ lineage, lineage.sourceRunId = source ∧
    t.pipelineRunRetries = s.pipelineRunRetries.insert retryRun.runId lineage
  models : ∃ snapshot, getRunModelProfile s source = some snapshot ∧
    retryRun.runId ∉ s.modelProfiles ∧
    t.modelProfiles = s.modelProfiles.insert retryRun.runId snapshot
  summaries : ∃ profile, getRunSummaryProfile s source = some profile ∧
    retryRun.runId ∉ s.summaryProfiles ∧
    t.summaryProfiles = s.summaryProfiles.insert retryRun.runId profile

theorem validateRetrySource_ok {s : Store} {source : String} {version : Nat} {sourceRun checkpoint}
    (h : validateRetrySource s source version = .ok (sourceRun, checkpoint)) :
    getPipelineRun s source = some sourceRun ∧ sourceRun.state = .failed ∧
      getRunModelProfile s source ≠ none ∧ getRunSummaryProfile s source ≠ none ∧
      getRetryLineageForSource s source = none := by
  simp only [validateRetrySource, peel_ok, okOrElse_eq_ok, refuseIf_eq_ok, exists_const, not_not,
    ne_eq] at h
  obtain ⟨found, row, failed, -, _, -, snapshot, profile, h⟩ := h
  cases existing : getRetryLineageForSource s source with
  | some lineage =>
      rw [existing] at h
      cases h
  | none =>
      rw [existing] at h
      obtain ⟨rfl, rfl⟩ := Prod.mk.inj (return_ok.mp h)
      exact ⟨row, failed, snapshot, profile, rfl⟩

theorem copyModelProfile_ok {s t : Store} {runId source copied snapshot}
    (h : copyModelProfile s runId source = .ok (copied, t))
    (stored : getRunModelProfile s source = some snapshot) :
    runId ∉ s.modelProfiles ∧
      t = { s with modelProfiles := s.modelProfiles.insert runId snapshot } := by
  simp only [copyModelProfile, stored, peel_ok, refuseIf_eq_ok, return_ok, exists_const] at h
  obtain ⟨absent, -, h⟩ := h
  obtain ⟨-, rfl⟩ := Prod.mk.inj h
  exact ⟨absent, rfl⟩

theorem copySummaryProfile_ok {s t : Store} {runId source copied profile}
    (h : copySummaryProfile s runId source = .ok (copied, t))
    (stored : getRunSummaryProfile s source = some profile) :
    runId ∉ s.summaryProfiles ∧
      t = { s with summaryProfiles := s.summaryProfiles.insert runId profile } := by
  simp only [copySummaryProfile, stored, peel_ok, refuseIf_eq_ok, return_ok, exists_const] at h
  obtain ⟨absent, -, h⟩ := h
  obtain ⟨-, rfl⟩ := Prod.mk.inj h
  exact ⟨absent, rfl⟩

theorem createRetryRun_retried {amb : Ambient} {source : String} {version : Nat}
    {retryRun : PipelineRun} {s t : Store} {result}
    (h : createRetryRun amb source version retryRun s = .ok (result, t)) :
    Retried source retryRun s t := by
  simp only [createRetryRun, peel_ok, refuseIf_eq_ok, return_ok, exists_const, not_or, not_not,
    ne_eq] at h
  obtain ⟨⟨sourceRun, checkpoint⟩, valid, ⟨document, -⟩, _, -, ⟨ingested, u⟩, persisted,
    ⟨parsing, w⟩, started, x, inserted, ⟨copiedModels, y⟩, models, ⟨copied, z⟩, summaries, -,
    h⟩ := h
  obtain ⟨-, rfl⟩ := Prod.mk.inj h
  have before := (persistReceivedRunToIngested_lineages persisted).1.trans
    (transitionInTx_lineages started)
  obtain ⟨row, failed, hasModel, hasSummary, unretried⟩ := validateRetrySource_ok valid
  obtain ⟨snapshot, model⟩ := Option.ne_none_iff_exists'.mp hasModel
  obtain ⟨profile, summary⟩ := Option.ne_none_iff_exists'.mp hasSummary
  simp only [insertRetryLineage, peel_ok, refuseIf_eq_ok, return_ok, exists_const, not_or,
    not_not] at inserted
  obtain ⟨-, -, -, ⟨present, -⟩, rfl⟩ := inserted
  have model' : getRunModelProfile w source = some snapshot := by
    rwa [getRunModelProfile, before.models]
  have summary' : getRunSummaryProfile w source = some profile := by
    rwa [getRunSummaryProfile, before.summaries]
  obtain ⟨newModel, rfl⟩ := copyModelProfile_ok models model'
  obtain ⟨newSummary, rfl⟩ := copySummaryProfile_ok summaries summary'
  obtain ⟨stored, lookup⟩ := Option.isSome_iff_exists.mp (AList.lookup_isSome.mpr present)
  exact {
    unretried
    failed := ⟨sourceRun, row, failed, document⟩
    created := ⟨_, congrArg (Option.map _) lookup⟩
    retries := ⟨_, rfl, by rw [before.retries]⟩
    documents := before.documents
    models := ⟨snapshot, model, before.models ▸ newModel, by rw [before.models]⟩
    summaries := ⟨profile, summary, before.summaries ▸ newSummary, by rw [before.summaries]⟩ }

/-! ## The chains of retries -/

/-- `retry` is the retry of `source`. -/
def Store.RetryOf (s : Store) (retry source : String) : Prop :=
  ∃ lineage, s.pipelineRunRetries.lookup retry = some lineage ∧ lineage.sourceRunId = source

/-- Both runs are stored, over one document. -/
def Store.ShareDocument (s : Store) (left right : String) : Prop :=
  ∃ leftRun rightRun, getPipelineRun s left = some leftRun ∧
    getPipelineRun s right = some rightRun ∧ leftRun.documentId = rightRun.documentId

/-- Both runs have profiles, and the same. -/
def Store.ShareProfiles (s : Store) (left right : String) : Prop :=
  (∃ snapshot, getRunModelProfile s left = some snapshot ∧
    getRunModelProfile s right = some snapshot) ∧
  ∃ profile, getRunSummaryProfile s left = some profile ∧
    getRunSummaryProfile s right = some profile

theorem not_retryOf_of_unretried {s : Store} {source retry : String}
    (unretried : getRetryLineageForSource s source = none) : ¬ s.RetryOf retry source := by
  rintro ⟨lineage, found, rfl⟩
  have stored : lineage ∈ s.pipelineRunRetries.entries.map Sigma.snd :=
    List.mem_map.mpr ⟨⟨retry, lineage⟩, AList.mem_lookup_iff.mp found, rfl⟩
  have other := List.find?_eq_none.mp unretried lineage stored
  exact other (decide_eq_true rfl)

theorem retryOf_insert {s t : Store} {fresh : String} {lineage : RetryLineage}
    (inserted : t.pipelineRunRetries = s.pipelineRunRetries.insert fresh lineage)
    {retry source : String} (h : t.RetryOf retry source) :
    retry = fresh ∧ source = lineage.sourceRunId ∨ s.RetryOf retry source := by
  obtain ⟨found, lookup, rfl⟩ := h
  rw [inserted] at lookup
  by_cases same : retry = fresh
  · rw [same, AList.lookup_insert] at lookup
    obtain rfl := Option.some.inj lookup
    exact .inl ⟨same, rfl⟩
  · rw [AList.lookup_insert_ne same] at lookup
    exact .inr ⟨found, lookup, rfl⟩

/-- The retries form chains over one document and one pair of profiles: each run has one
retry at most, and `rank` grows from a run to its retry. -/
structure Chains (s : Store) : Prop where
  single : ∀ first second source, s.RetryOf first source → s.RetryOf second source →
    first = second
  ranked : ∃ rank : String → Nat, ∀ retry source, s.RetryOf retry source →
    rank source < rank retry
  document : ∀ retry source, s.RetryOf retry source → s.ShareDocument retry source
  profiles : ∀ retry source, s.RetryOf retry source → s.ShareProfiles retry source

/-- Every run stays, over its document. -/
def KeepsRuns (s t : Store) : Prop :=
  ∀ runId run, getPipelineRun s runId = some run →
    ∃ run', getPipelineRun t runId = some run' ∧ run'.documentId = run.documentId

theorem KeepsRuns.shareDocument {s t : Store} (keeps : KeepsRuns s t) {left right : String}
    (h : s.ShareDocument left right) : t.ShareDocument left right := by
  obtain ⟨leftRun, rightRun, leftRow, rightRow, same⟩ := h
  obtain ⟨leftRun', leftRow', leftDocument⟩ := keeps left leftRun leftRow
  obtain ⟨rightRun', rightRow', rightDocument⟩ := keeps right rightRun rightRow
  exact ⟨leftRun', rightRun', leftRow', rightRow',
    (leftDocument.trans same).trans rightDocument.symm⟩

theorem Retains.shareProfiles {s t : Store} (retains : Retains s t) {left right : String}
    (h : s.ShareProfiles left right) : t.ShareProfiles left right := by
  obtain ⟨⟨snapshot, leftModel, rightModel⟩, profile, leftSummary, rightSummary⟩ := h
  exact ⟨⟨snapshot, retains.models _ _ leftModel, retains.models _ _ rightModel⟩,
    profile, retains.summaries _ _ leftSummary, retains.summaries _ _ rightSummary⟩

theorem Chains.retains {s t : Store} (h : Chains s) (keeps : KeepsRuns s t)
    (retains : Retains s t) : Chains t := by
  have same : t.RetryOf = s.RetryOf := by
    funext retry source
    simp only [Store.RetryOf, retains.retries]
  obtain ⟨rank, ranked⟩ := h.ranked
  constructor
  · rw [same]
    exact h.single
  · rw [same]
    exact ⟨rank, ranked⟩
  · intro retry source retried
    rw [same] at retried
    exact keeps.shareDocument (h.document retry source retried)
  · intro retry source retried
    rw [same] at retried
    exact retains.shareProfiles (h.profiles retry source retried)

namespace Retried

variable {source : String} {retryRun : PipelineRun} {s t : Store}

section

variable (h : Retried source retryRun s t)

include h

theorem shareProfiles {left right : String}
    (shared : s.ShareProfiles left right) : t.ShareProfiles left right := by
  obtain ⟨_, -, newModel, models⟩ := h.models
  obtain ⟨_, -, newSummary, summaries⟩ := h.summaries
  obtain ⟨⟨snapshot, leftModel, rightModel⟩, profile, leftSummary, rightSummary⟩ := shared
  simp only [Store.ShareProfiles, getRunModelProfile, getRunSummaryProfile, models, summaries]
  exact ⟨⟨snapshot, lookup_insert_of_absent newModel leftModel,
    lookup_insert_of_absent newModel rightModel⟩, profile,
    lookup_insert_of_absent newSummary leftSummary,
    lookup_insert_of_absent newSummary rightSummary⟩

theorem inherits : t.ShareProfiles retryRun.runId source := by
  obtain ⟨snapshot, model, newModel, models⟩ := h.models
  obtain ⟨profile, summary, newSummary, summaries⟩ := h.summaries
  simp only [Store.ShareProfiles, getRunModelProfile, getRunSummaryProfile, models, summaries]
  exact ⟨⟨snapshot, AList.lookup_insert _, lookup_insert_of_absent newModel model⟩, profile,
    AList.lookup_insert _, lookup_insert_of_absent newSummary summary⟩

theorem retryOf : t.RetryOf retryRun.runId source := by
  obtain ⟨lineage, rfl, inserted⟩ := h.retries
  exact ⟨lineage, by rw [inserted, AList.lookup_insert], rfl⟩

theorem retryOf_cases {retry origin : String}
    (retried : t.RetryOf retry origin) :
    retry = retryRun.runId ∧ origin = source ∨ s.RetryOf retry origin := by
  obtain ⟨lineage, rfl, inserted⟩ := h.retries
  exact retryOf_insert inserted retried

/-- A new run extends the chain that its source ends. -/
theorem chains (keeps : KeepsRuns s t)
    (absent : getPipelineRun s retryRun.runId = none)
    (document : ∀ run, getPipelineRun t retryRun.runId = some run →
      run.documentId = retryRun.documentId) (before : Chains s) : Chains t := by
  obtain ⟨sourceRun, row, -, sameDocument⟩ := h.failed
  have linked : ∀ {retry origin}, s.RetryOf retry origin →
      retry ≠ retryRun.runId ∧ origin ≠ retryRun.runId := by
    intro retry origin retried
    obtain ⟨left, right, leftRow, rightRow, -⟩ := before.document retry origin retried
    constructor
    · rintro rfl
      cases absent.symm.trans leftRow
    · rintro rfl
      cases absent.symm.trans rightRow
  constructor
  · intro first second origin left right
    rcases h.retryOf_cases left with ⟨rfl, rfl⟩ | left
    · rcases h.retryOf_cases right with ⟨rfl, -⟩ | right
      · rfl
      · exact absurd right (not_retryOf_of_unretried h.unretried)
    · rcases h.retryOf_cases right with ⟨rfl, rfl⟩ | right
      · exact absurd left (not_retryOf_of_unretried h.unretried)
      · exact before.single first second origin left right
  · obtain ⟨rank, ranked⟩ := before.ranked
    refine ⟨Function.update rank retryRun.runId (rank source + 1), fun retry origin retried => ?_⟩
    rcases h.retryOf_cases retried with ⟨rfl, rfl⟩ | retried
    · have ne : origin ≠ retryRun.runId := by
        rintro rfl
        cases absent.symm.trans row
      rw [Function.update_of_ne ne, Function.update_self]
      exact Nat.lt_succ_self _
    · obtain ⟨left, right⟩ := linked retried
      rw [Function.update_of_ne right, Function.update_of_ne left]
      exact ranked retry origin retried
  · intro retry origin retried
    rcases h.retryOf_cases retried with ⟨rfl, rfl⟩ | retried
    · obtain ⟨run, created⟩ := h.created
      obtain ⟨sourceRun', row', sameSource⟩ := keeps origin sourceRun row
      exact ⟨run, sourceRun', created, row',
        ((document run created).trans sameDocument).trans sameSource.symm⟩
    · exact keeps.shareDocument (before.document retry origin retried)
  · intro retry origin retried
    rcases h.retryOf_cases retried with ⟨rfl, rfl⟩ | retried
    · exact h.inherits
    · exact h.shareProfiles (before.profiles retry origin retried)

end

end Retried

/-! ## Every run stays over its document -/

/-- A run that is stored has this document. -/
def OfDocument (documentId : String) (v : RunRows) : Prop :=
  ∀ run, v.row = some run → run.documentId = documentId

theorem OfDocument.step {codec : Codec} {runId documentId : String} {v w : RunRows} {label}
    (h : OfDocument documentId v)
    (created : ∀ run, label = .create run → run.documentId = documentId)
    (step : Step codec runId v label w) : OfDocument documentId w := by
  intro run' row'
  cases step with
  | create =>
      obtain rfl := Option.some.inj row'
      exact created _ rfl
  | @move run m stage reason now eventId row =>
      obtain rfl := Option.some.inj row'
      exact h run row
  | attempt | handOff => exact h run' row'

theorem call_keepsRuns (codec : Codec) (call : Call) (s : Store) :
    KeepsRuns s (call.after codec s) := by
  intro runId run row
  have both := Machine.path_preserves
    (P := fun v => v.row ≠ none ∧ OfDocument run.documentId v) ?_
    ((call_follows codec call s).path runId)
    ⟨fun none => Option.some_ne_none run (row.symm.trans none), fun other same => by
      obtain rfl := Option.some.inj (row.symm.trans same)
      rfl⟩
  · obtain ⟨present, document⟩ := both
    obtain ⟨run', row'⟩ := Option.ne_none_iff_exists'.mp present
    exact ⟨run', row', document run' row'⟩
  · rintro v w ⟨label, -, step⟩ ⟨present, document⟩
    refine ⟨step.row_ne_none, document.step (fun other created => ?_) step⟩
    subst created
    exact absurd step.absent_of_create present

theorem Creation.ofDocument {codec : Codec} {run : PipelineRun} {s t : Store}
    (h : Creation codec run s t) : OfDocument run.documentId (t.rowsOf run.runId) := by
  refine Machine.path_preserves ?_ h.path ?_
  · rintro v w ⟨label, onboarding, step⟩ document
    refine document.step (fun other created => ?_) step
    subst created
    cases onboarding
    rfl
  · intro other row
    cases h.absent.symm.trans row

/-! ## The chains of every store -/

theorem call_chains (codec : Codec) (call : Call) {s : Store} (h : Chains s) :
    Chains (call.after codec s) := by
  have keeps := call_keepsRuns codec call s
  cases outcome : call.result codec s with
  | error e =>
      rw [after_of_error outcome]
      exact h
  | ok _ =>
      have done := after_of_ok outcome
      rcases body_retains done with ⟨source, version, run, retry⟩ | retains
      · rw [retry] at done
        obtain ⟨_, done⟩ := discardResult_ok.mp done
        have creation : Creation codec run s _ := createRetryRun_ok done
        exact (createRetryRun_retried done).chains keeps creation.absent creation.ofDocument h
      · exact h.retains keeps retains

theorem Reachable.chains {codec : Codec} {s : Store} (h : Reachable codec s) : Chains s := by
  refine Machine.Reachable.invariant (P := Chains) ?_ ?_ h
  · rintro _ rfl
    have none : ∀ {retry source}, ¬ Store.empty.RetryOf retry source := by
      rintro retry source ⟨lineage, found, -⟩
      cases found
    exact ⟨fun _ _ _ left => absurd left none, ⟨fun _ => 0, fun _ _ left => absurd left none⟩,
      fun _ _ left => absurd left none, fun _ _ left => absurd left none⟩
  · rintro s call _ rfl chains
    exact call_chains codec call chains

namespace Chains

variable {s : Store}

theorem rank_lt {rank : String → Nat}
    (ranked : ∀ retry source, s.RetryOf retry source → rank source < rank retry)
    {retry ancestor : String} (h : Relation.TransGen s.RetryOf retry ancestor) :
    rank ancestor < rank retry := by
  induction h with
  | single last => exact ranked _ _ last
  | tail _ last ih => exact (ranked _ _ last).trans ih

theorem acyclic (h : Chains s) (runId : String) : ¬ Relation.TransGen s.RetryOf runId runId := by
  intro cycle
  obtain ⟨rank, ranked⟩ := h.ranked
  exact Nat.lt_irrefl _ (rank_lt ranked cycle)

theorem shareDocument (h : Chains s) {retry ancestor : String}
    (descends : Relation.TransGen s.RetryOf retry ancestor) : s.ShareDocument retry ancestor := by
  induction descends with
  | single last => exact h.document _ _ last
  | tail _ last ih =>
      obtain ⟨first, middle, firstRow, middleRow, same⟩ := ih
      obtain ⟨middle', final, middleRow', finalRow, same'⟩ := h.document _ _ last
      obtain rfl := Option.some.inj (middleRow.symm.trans middleRow')
      exact ⟨first, final, firstRow, finalRow, same.trans same'⟩

end Chains

/-- The retries of a store, whoever calls and in whatever order. -/
theorem retry_lineages (codec : Codec) {s : Store} (reach : Reachable codec s) :
    (∀ source first second, s.RetryOf first source → s.RetryOf second source →
      first = second) ∧
    (∀ retry first second, s.RetryOf retry first → s.RetryOf retry second → first = second) ∧
    (∀ runId, ¬ Relation.TransGen s.RetryOf runId runId) ∧
    (∀ retry ancestor, Relation.TransGen s.RetryOf retry ancestor →
      s.ShareDocument retry ancestor) ∧
    (∀ retry source, s.RetryOf retry source → s.ShareProfiles retry source) ∧
    (∀ (call : Call) source version run,
      call.operation = .createRetryRun source version run →
      (call.result codec s = .ok () →
        (call.after codec s).RetryOf run.runId source ∧
        (call.after codec s).rowsOf source = s.rowsOf source) ∧
      ∀ e, call.result codec s = .error e → call.after codec s = s) := by
  have chains := reach.chains
  refine ⟨fun source first second => chains.single first second source, ?_, chains.acyclic,
    fun _ _ => chains.shareDocument, chains.profiles, fun call source version run retry =>
    ⟨fun ok => ?_, fun e => after_of_error⟩⟩
  · rintro retry _ _ ⟨first, found, rfl⟩ ⟨second, found', rfl⟩
    obtain rfl := Option.some.inj (found.symm.trans found')
    rfl
  · have done := after_of_ok ok
    rw [retry] at done
    obtain ⟨_, done⟩ := discardResult_ok.mp done
    have creation : Creation codec run s _ := createRetryRun_ok done
    have retried := createRetryRun_retried done
    obtain ⟨sourceRun, row, -⟩ := retried.failed
    have ne : source ≠ run.runId := by
      rintro rfl
      cases creation.absent.symm.trans row
    exact ⟨retried.retryOf, creation.frame source ne⟩

def failingCalls : List Operation :=
  [sampleIngestion, .startParsing "root" 3,
    .failParsing "root" 4 ⟨"PARSE_FAILED", "The document could not be read.", some .parse, true⟩]

def failedStore : Store := Store.empty.afterCalls sampleCodec (sampleCalls failingCalls)

def retryCall : Call :=
  ⟨sampleAmbient 30, .createRetryRun "root" 5 (prepareReceivedRun "retry" "document" 0)⟩

/-- The failed run is retried, and only once. -/
theorem failed_run_is_retried :
    Reachable sampleCodec failedStore ∧
      retryCall.result sampleCodec failedStore = .ok () ∧
      (retryCall.after sampleCodec failedStore).RetryOf "retry" "root" ∧
      (retryCall.after sampleCodec failedStore).ShareDocument "retry" "root" := by
  have reach : Reachable sampleCodec failedStore := reachable_afterCalls _ _
  have created : retryCall.result sampleCodec failedStore = .ok () := by
    decide +kernel
  obtain ⟨-, -, -, -, -, creates⟩ := retry_lineages sampleCodec reach
  obtain ⟨retried, -⟩ := (creates retryCall "root" 5 _ rfl).1 created
  obtain ⟨-, -, -, shared, -⟩ := retry_lineages sampleCodec (reach.after retryCall)
  exact ⟨reach, created, retried, shared _ _ (.single retried)⟩

end DocumentSummarizer.Pipeline
