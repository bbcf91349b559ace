import DocumentSummarizer.Pipeline.RetryLineages
import DocumentSummarizer.Ocr.Consumer

/-! # Operations that leave the handoffs alone

Only the operations of the OCR consumer write the two handoff tables.  Of the
others one moves an admitted handoff to its end; the rest keep both tables.
-/

namespace DocumentSummarizer.Ocr

open Library Pipeline

/-- The two tables of the OCR handoffs. -/
def handoffTables (s : Store) : List OcrHandoff × List OcrLineage :=
  (s.ocrHandoffs, s.ocrLineage)

theorem handoffTables_of_beside {s t : Store} (same : t.beside = s.beside) :
    handoffTables t = handoffTables s :=
  congrArg (fun tables => tables.2.2) same

section Operations

variable {codec : Codec} {s t : Store}

theorem createRetryRun_tables {amb source version retryRun result}
    (h : createRetryRun amb source version retryRun s = .ok (result, t)) :
    handoffTables t = handoffTables s := by
  simp only [createRetryRun, insertRetryLineage, peel_ok, refuseIf_eq_ok, return_ok, exists_const,
    okOrElse_eq_ok] at h
  obtain ⟨⟨sourceRun, checkpoint⟩, -, -, document, -, ⟨ingested, u⟩, persisted, ⟨parsing, w⟩,
    started, x, ⟨-, -, -, -, rfl⟩, ⟨_, y⟩, models, ⟨copied, z⟩, summaries, -, h⟩ := h
  obtain ⟨-, rfl⟩ := Prod.mk.inj h
  have created : handoffTables w = handoffTables s :=
    handoffTables_of_beside ((persistReceivedRunToIngested_lineages persisted).1.trans
      (transitionInTx_lineages started)).beside
  have copies := (copyModelProfile_gives models).profiled.trans
    (copySummaryProfile_gives summaries).profiled
  exact (handoffTables_of_beside copies.beside).trans created

theorem getOrCreateProfileSuggestionOwner_tables {amb hash version result}
    (h : getOrCreateProfileSuggestionOwner amb hash version s = .ok (result, t)) :
    handoffTables t = handoffTables s := by
  simp only [getOrCreateProfileSuggestionOwner, peel_ok] at h
  obtain ⟨_, -, h⟩ := h
  split at h
  · simp only [peel_ok, return_ok] at h
    obtain ⟨_, -, h⟩ := h
    cases h
    rfl
  · simp only [peel_ok, return_ok] at h
    obtain ⟨_, -, h⟩ := h
    cases h
    rfl

/-- An operation from outside the consumer keeps the tables, but for the one that completes the
handoff of a child. -/
theorem outside_tables {amb : Ambient} {op : Operation} (outside : isOutside op = true)
    (unmarked : ∀ childRunId, op ≠ .markOcrHandoffCompletedForChild childRunId)
    (h : op.body codec amb s = .ok ((), t)) : handoffTables t = handoffTables s := by
  cases op with
  | prepareOcrHandoff | transitionOcrHandoff | storeOcrOutputs | failOcrHandoff | admitOcrChild =>
      cases outside
  | markOcrHandoffCompletedForChild childRunId => exact absurd rfl (unmarked childRunId)
  | createRetryRun =>
      obtain ⟨_, h⟩ := discardResult_ok.mp h
      exact createRetryRun_tables h
  | getOrCreateProfileSuggestionOwner =>
      obtain ⟨_, h⟩ := discardResult_ok.mp h
      exact getOrCreateProfileSuggestionOwner_tables h
  | ensureRunModelProfile =>
      exact handoffTables_of_beside (ensureRunModelProfile_gives (map_unit_ok h)).profiled.beside
  | ensureRunSummaryProfile =>
      exact handoffTables_of_beside (ensureRunSummaryProfile_gives (map_unit_ok h)).profiled.beside
  | recordVerificationAttempt =>
      exact handoffTables_of_beside (recordVerificationAttempt_lineages h).beside
  | persistIngestion =>
      obtain ⟨_, h⟩ := discardResult_ok.mp h
      exact handoffTables_of_beside (persistIngestionWithProfiles_profiles h).beside
  | persistCorrectedDocument =>
      obtain ⟨_, h⟩ := discardResult_ok.mp h
      exact handoffTables_of_beside (persistCorrectedDocument_profiles h).beside
  | startParsing | startNormalizing | startStructuring | startChunking | startAnalysis
  | startSynthesis | startVerification | completeParsing | completeNormalization
  | completeStructuring | completeChunking | completeAnalysis | completeSynthesis
  | completeVerification | completeSummary | failParsing | failNormalization | failStructuring
  | failChunking | failAnalysis | failSynthesis | failVerification | failSummary
  | completeCancellation =>
      exact handoffTables_of_beside (move_lineages rfl h).beside
  | requestCancellation =>
      obtain ⟨_, h⟩ := discardResult_ok.mp h
      exact handoffTables_of_beside (requestCancellation_lineages h).beside
  | failBackgroundExecution =>
      obtain ⟨_, h⟩ := discardResult_ok.mp h
      exact handoffTables_of_beside (failBackgroundExecution_lineages h).beside
  | reconcileInterruptedRunsInTransaction | reconcileInterruptedRuns =>
      obtain ⟨_, h⟩ := discardResult_ok.mp h
      exact handoffTables_of_beside (reconcileInterruptedRuns_lineages h).beside
  | rewindInterruptedOcrChild =>
      obtain ⟨_, h⟩ := discardResult_ok.mp h
      exact handoffTables_of_beside (rewindInterruptedOcrChild_lineages h).beside

end Operations

end DocumentSummarizer.Ocr
