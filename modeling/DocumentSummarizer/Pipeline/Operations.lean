import DocumentSummarizer.Pipeline.Store

/-! # Store operations

The bodies of the store's transactions, each on a working copy of the store.
The members of a family (`start…`, `complete…`, `fail…`) are one body applied
to the states, stage and table of the member.
-/

namespace DocumentSummarizer.Pipeline

open Library

/-! ## Ingestion -/

def preparedPipelineVersion : String := "1.0"

/-- The run that `ingest` prepares for a document. -/
def prepareReceivedRun (runId documentId : String) (createdAt : DateTime) : PipelineRun where
  runId := runId
  documentId := documentId
  state := .received
  stateVersion := 1
  pipelineVersion := preparedPipelineVersion
  createdAt := createdAt
  startedAt := none
  updatedAt := createdAt
  completedAt := none
  currentStage := none
  progress := ⟨0, 0, 0⟩
  warnings := []
  failure := none
  cancellationRequested := false
  resumable := true

def ensureRunModelProfile (s : Store) (runId : String) (snapshot : Option ModelProfileSnapshot) :
    Except StoreError Store :=
  match getRunModelProfile s runId, snapshot with
  | some persisted, some snapshot =>
    if persisted = snapshot then .ok s else .error (.modelProfileMismatch runId)
  | some _, none => .error (.modelProfileMismatch runId)
  | none, some snapshot =>
    if runId ∈ s.pipelineRuns then
      .ok { s with modelProfiles := s.modelProfiles.insert runId snapshot }
    else
      .error (.runNotFound runId)
  | none, none => .ok s

def ensureRunSummaryProfile (s : Store) (runId : String) (profile : SummaryProfile) :
    Except StoreError Store :=
  match getRunSummaryProfile s runId with
  | some persisted =>
    if persisted = profile then .ok s else .error (.summaryProfileMismatch runId)
  | none =>
    if runId ∈ s.pipelineRuns then
      .ok { s with summaryProfiles := s.summaryProfiles.insert runId profile }
    else
      .error (.runNotFound runId)

def createdEvent (run : PipelineRun) (creationReason eventId : String) : PipelineEvent where
  eventId := eventId
  runId := run.runId
  sequenceNo := 0
  previousState := none
  nextState := .received
  timestamp := run.createdAt
  stage := none
  workUnitId := none
  reason := some creationReason

def persistReceivedRunToIngested (amb : Ambient) (s : Store) (run : PipelineRun)
    (creationReason : String) (transitionReason : Option String) :
    Except StoreError (PipelineRun × Store) := do
  let s ← insertPipelineRun s run
  let s ← insertPipelineEvent s (createdEvent run creationReason (amb.newV4 0))
  let (ingesting, s) ← transitionInTx amb 1 s run.runId .received 1 .ingesting (some .ingest)
    transitionReason {}
  transitionInTx amb 2 s run.runId .ingesting ingesting.stateVersion .ingested (some .ingest)
    transitionReason {}

def persistIngestionInTransaction (amb : Ambient) (s : Store) (document : IngestedDocument)
    (run : PipelineRun) (summaryProfile : SummaryProfile) :
    Except StoreError (PipelineRun × Store) := do
  refuseIf (run.documentId ≠ document.documentId ∨ run.state ≠ .received ∨ run.stateVersion ≠ 1)
    (.invalidIngestion "new run must reference the document at RECEIVED version 1")
  let s ← insertDocument s document
  let (ingested, s) ← persistReceivedRunToIngested amb s run "run_created" none
  let s ← ensureRunSummaryProfile s ingested.runId summaryProfile
  return (ingested, s)

def persistIngestionWithProfiles (amb : Ambient) (document : IngestedDocument)
    (run : PipelineRun) (profileSnapshot : Option ModelProfileSnapshot)
    (summaryProfile : SummaryProfile) (s : Store) : Except StoreError (PipelineRun × Store) := do
  refuseIf (run.documentId ≠ document.documentId ∨ run.state ≠ .received ∨ run.stateVersion ≠ 1)
    (.invalidIngestion "new run must reference the document at RECEIVED version 1")
  let (ingested, s) ← persistIngestionInTransaction amb s document run summaryProfile
  let s ← ensureRunModelProfile s ingested.runId profileSnapshot
  return (ingested, s)

def persistIngestion (amb : Ambient) (document : IngestedDocument) (run : PipelineRun) :
    Store → Except StoreError (PipelineRun × Store) :=
  persistIngestionWithProfiles amb document run none .general

/-- Runs inside the transaction of the correction that calls it. -/
def persistCorrectedDocument (codec : Codec) (amb : Ambient) (document : IngestedDocument)
    (run : PipelineRun) (parsed : ParsedDocument) (sourceRunId : String) (s : Store) :
    Except StoreError (PipelineRun × Store) := do
  let profile ← okOrElse (getRunSummaryProfile s sourceRunId)
    (.summaryProfileUnavailable sourceRunId)
  let (ingested, s) ← persistIngestionInTransaction amb s document run profile
  let s ← ensureRunModelProfile s run.runId (getRunModelProfile s sourceRunId)
  let (parsing, s) ← transitionInTx amb 3 s run.runId .ingested ingested.stateVersion .parsing
    (some .parse) (some "operator_ocr_correction") {}
  let s ← insertParsedDocument codec s run.runId parsed
  transitionInTx amb 4 s run.runId .parsing parsing.stateVersion .parsed (some .parse)
    (some "operator_ocr_correction")
    { warnings := some (parsed.warnings ++ parsed.pages.flatMap (·.warnings)) }

/-! ## Retry -/

def validateRetrySource (s : Store) (sourceRunId : String) (expectedSourceVersion : Nat) :
    Except StoreError (PipelineRun × RetryCheckpoint) := do
  let sourceRun ← okOrElse (getPipelineRun s sourceRunId) (.runNotFound sourceRunId)
  refuseIf (sourceRun.state ≠ .failed)
    (.invalidRetrySource sourceRunId "only a failed run can create a retry")
  refuseIf (sourceRun.stateVersion ≠ expectedSourceVersion)
    (.transition (.concurrentModification expectedSourceVersion sourceRun.stateVersion))
  let checkpoint ← okOrElse sourceRun.retryCheckpoint
    (.invalidRetrySource sourceRunId "the failure has no reusable checkpoint")
  refuseIf (getRunModelProfile s sourceRunId = none) (.invalidRetrySource sourceRunId
    "the failed run has no immutable model profile to inherit")
  refuseIf (getRunSummaryProfile s sourceRunId = none) (.invalidRetrySource sourceRunId
    "the failed run has no immutable summary profile to inherit")
  match getRetryLineageForSource s sourceRunId with
  | some existing => .error (.retryAlreadyExists sourceRunId existing.retryRunId)
  | none => return (sourceRun, checkpoint)

def insertRetryLineage (s : Store) (lineage : RetryLineage) : Except StoreError Store := do
  refuseIf (lineage.retryRunId = lineage.sourceRunId) (.sqlite "pipeline_run_retries" .check)
  refuseIf (lineage.retryRunId ∈ s.pipelineRunRetries) (.sqlite "pipeline_run_retries" .primaryKey)
  refuseIf (getRetryLineageForSource s lineage.sourceRunId ≠ none)
    (.sqlite "pipeline_run_retries" .unique)
  refuseIf (lineage.retryRunId ∉ s.pipelineRuns ∨ lineage.sourceRunId ∉ s.pipelineRuns)
    (.sqlite "pipeline_run_retries" .foreignKey)
  return { s with pipelineRunRetries := s.pipelineRunRetries.insert lineage.retryRunId lineage }

/-- `INSERT INTO pipeline_run_model_profiles … SELECT`, with the number of rows copied. -/
def copyModelProfile (s : Store) (runId sourceRunId : String) :
    Except StoreError (Nat × Store) :=
  match getRunModelProfile s sourceRunId with
  | none => .ok (0, s)
  | some snapshot => do
    refuseIf (runId ∈ s.modelProfiles) (.sqlite "pipeline_run_model_profiles" .primaryKey)
    refuseIf (runId ∉ s.pipelineRuns) (.sqlite "pipeline_run_model_profiles" .foreignKey)
    return (1, { s with modelProfiles := s.modelProfiles.insert runId snapshot })

/-- `INSERT INTO pipeline_run_summary_profiles … SELECT`, with the number of rows copied. -/
def copySummaryProfile (s : Store) (runId sourceRunId : String) :
    Except StoreError (Nat × Store) :=
  match getRunSummaryProfile s sourceRunId with
  | none => .ok (0, s)
  | some profile => do
    refuseIf (runId ∈ s.summaryProfiles) (.sqlite "pipeline_run_summary_profiles" .primaryKey)
    refuseIf (runId ∉ s.pipelineRuns) (.sqlite "pipeline_run_summary_profiles" .foreignKey)
    return (1, { s with summaryProfiles := s.summaryProfiles.insert runId profile })

def createRetryRun (amb : Ambient) (sourceRunId : String) (expectedSourceVersion : Nat)
    (retryRun : PipelineRun) (s : Store) :
    Except StoreError ((PipelineRun × IngestedDocument × RetryLineage) × Store) := do
  let (sourceRun, checkpoint) ← validateRetrySource s sourceRunId expectedSourceVersion
  refuseIf (retryRun.documentId ≠ sourceRun.documentId ∨ retryRun.state ≠ .received ∨
      retryRun.stateVersion ≠ 1 ∨ retryRun.failure.isSome ∨ retryRun.completedAt.isSome)
    (.invalidRetrySource sourceRunId
      "new retry must reference the source document at RECEIVED version 1")
  let document ← okOrElse (getDocument s sourceRun.documentId)
    (.documentNotFound sourceRun.documentId)
  let (ingested, s) ← persistReceivedRunToIngested amb s retryRun "retry_run_created"
    (some "retry_checkpoint_reused")
  let (parsing, s) ← transitionInTx amb 3 s retryRun.runId .ingested ingested.stateVersion .parsing
    (some .parse) (some "retry_processing_started") {}
  let lineage : RetryLineage := ⟨retryRun.runId, sourceRunId, checkpoint, retryRun.createdAt⟩
  let s ← insertRetryLineage s lineage
  let (_, s) ← copyModelProfile s retryRun.runId sourceRunId
  let (copiedSummaryProfile, s) ← copySummaryProfile s retryRun.runId sourceRunId
  refuseIf (copiedSummaryProfile ≠ 1) (.summaryProfileUnavailable sourceRunId)
  return ((parsing, document, lineage), s)

/-! ## Starting a stage -/

/-- Reads the stage's input, then moves the run from its checkpoint. -/
def startStage {α : Type} (load : Store → String → Except StoreError α)
    (source target : PipelineState) (stage : PipelineStage) (amb : Ambient) (runId : String)
    (expectedVersion : Nat) (s : Store) : Except StoreError ((PipelineRun × α) × Store) := do
  let input ← load s runId
  let (run, s) ← transitionInTx amb 0 s runId source expectedVersion target (some stage) none {}
  return ((run, input), s)

def requireArtifact (codec : Codec) (kind : ArtifactKind) (s : Store) (runId : String) :
    Except StoreError kind.Artifact := do
  let found ← getArtifact codec s kind runId
  okOrElse found (kind.notFound runId)

def loadRunDocument (s : Store) (runId : String) : Except StoreError IngestedDocument := do
  let run ← okOrElse (getPipelineRun s runId) (.runNotFound runId)
  okOrElse (getDocument s run.documentId) (.documentNotFound run.documentId)

def hasOcrHandoffForRoot (s : Store) (rootRunId : String) : Bool :=
  s.ocrHandoffs.any (·.rootRunId = rootRunId)

def loadParsedUnlessHandedOff (s : Store) (runId : String) : Except StoreError ParsedDocument := do
  refuseIf (hasOcrHandoffForRoot s runId = true)
    (.invalidOcrHandoff "the OCR handoff owns this root run")
  okOrElse (getParsedDocument s runId) (.parsedArtifactNotFound runId)

def loadNormalizedAndStructured (codec : Codec) (s : Store) (runId : String) :
    Except StoreError (NormalizedDocument × StructuredDocument) := do
  let normalized ← requireArtifact codec .normalized s runId
  let structured ← requireArtifact codec .structured s runId
  return (normalized, structured)

def startParsing :=
  startStage loadRunDocument .ingested .parsing .parse

def startNormalizing :=
  startStage loadParsedUnlessHandedOff .parsed .normalizing .normalize

def startStructuring (codec : Codec) :=
  startStage (requireArtifact codec .normalized) .normalized .structuring .structure

def startChunking (codec : Codec) :=
  startStage (loadNormalizedAndStructured codec) .structured .chunking .chunk

def startAnalysis (codec : Codec) :=
  startStage (requireArtifact codec .chunked) .chunked .analyzing .analyze

def startSynthesis (codec : Codec) :=
  startStage (requireArtifact codec .analyzed) .analyzed .synthesizing .synthesize

def startVerification (codec : Codec) :=
  startStage (requireArtifact codec .synthesized) .synthesized .verifying .verify

/-! ## Completing a stage -/

/-- The artifact must belong to the run's document. -/
def ensureRunDocumentMatches (mismatch : String → String → StoreError) (s : Store)
    (runId artifactDocumentId : String) : Except StoreError Unit := do
  let run ← okOrElse (getPipelineRun s runId) (.runNotFound runId)
  refuseIf (run.documentId ≠ artifactDocumentId) (mismatch artifactDocumentId run.documentId)

def ensureRunStateVersion (s : Store) (runId : String) (expectedState : PipelineState)
    (expectedVersion : Nat) : Except StoreError Unit := do
  let run ← okOrElse (getPipelineRun s runId) (.runNotFound runId)
  refuseIf (run.state ≠ expectedState)
    (.transition (.staleExpectedState expectedState run.state))
  refuseIf (run.stateVersion ≠ expectedVersion)
    (.transition (.concurrentModification expectedVersion run.stateVersion))

def ensureAttemptOrdinal (expected actual : Nat) : Except StoreError Unit :=
  refuseIf (expected ≠ actual) (.attemptOrdinalMismatch expected actual)

/-- Inserts the stage's artifact, then moves the run to the next checkpoint. -/
def completeStage (kind : ArtifactKind) (insert : Store → Except StoreError Store)
    (source target : PipelineState) (stage : PipelineStage) (amb : Ambient) (runId : String)
    (expectedVersion : Nat) (artifact : kind.Artifact) (warnings : List PipelineWarning)
    (s : Store) : Except StoreError (PipelineRun × Store) := do
  ensureRunDocumentMatches kind.documentMismatch s runId (kind.documentId artifact)
  let s ← insert s
  transitionInTx amb 0 s runId source expectedVersion target (some stage) none
    { warnings := some warnings }

def completeParsing (codec : Codec) (amb : Ambient) (runId : String) (expectedVersion : Nat)
    (parsed : ParsedDocument) :=
  completeStage .parsed (insertParsedDocument codec · runId parsed)
    .parsing .parsed .parse amb runId expectedVersion parsed

def completeNormalization (codec : Codec) (amb : Ambient) (runId : String) (expectedVersion : Nat)
    (normalized : NormalizedDocument) :=
  completeStage .normalized (insertNormalizedDocument codec · runId normalized)
    .normalizing .normalized .normalize amb runId expectedVersion normalized

def completeStructuring (codec : Codec) (amb : Ambient) (runId : String) (expectedVersion : Nat)
    (structured : StructuredDocument) :=
  completeStage .structured (insertStructuredDocument codec · runId structured)
    .structuring .structured .structure amb runId expectedVersion structured

def completeChunking (codec : Codec) (amb : Ambient) (runId : String) (expectedVersion : Nat)
    (chunked : ChunkedDocument) :=
  completeStage .chunked (insertChunkedDocument codec · runId chunked)
    .chunking .chunked .chunk amb runId expectedVersion chunked

def completeAnalysis (codec : Codec) (amb : Ambient) (runId : String) (expectedVersion : Nat)
    (analyzed : AnalyzedDocument) :=
  completeStage .analyzed (insertAnalyzedDocument codec · runId analyzed)
    .analyzing .analyzed .analyze amb runId expectedVersion analyzed

/-- The first synthesis is also attempt `0`. -/
def insertSynthesisWithAttempt (codec : Codec) (runId : String)
    (synthesized : SynthesizedDocument) (s : Store) : Except StoreError Store := do
  let s ← insertSynthesizedDocument codec s runId synthesized
  insertSynthesisAttempt codec s runId 0 synthesized

def completeSynthesis (codec : Codec) (amb : Ambient) (runId : String) (expectedVersion : Nat)
    (synthesized : SynthesizedDocument) :=
  completeStage .synthesized (insertSynthesisWithAttempt codec runId synthesized)
    .synthesizing .synthesized .synthesize amb runId expectedVersion synthesized

def insertVerificationWithAttempt (codec : Codec) (runId : String) (attemptOrdinal : Nat)
    (verified : VerifiedDocument) (s : Store) : Except StoreError Store := do
  ensureAttemptOrdinal attemptOrdinal verified.synthesisAttemptOrdinal
  let s ← insertVerificationAttempt codec s runId attemptOrdinal verified
  insertVerifiedDocument codec s runId verified

def completeVerification (codec : Codec) (amb : Ambient) (runId : String) (expectedVersion : Nat)
    (attemptOrdinal : Nat) (verified : VerifiedDocument) :=
  completeStage .verified (insertVerificationWithAttempt codec runId attemptOrdinal verified)
    .verifying .verified .verify amb runId expectedVersion verified

/-- Records an attempt in a transaction of its own; the run stays in `Verifying`. -/
def recordVerificationAttempt (codec : Codec) (runId : String) (expectedVersion : Nat)
    (attemptOrdinal : Nat) (verified : VerifiedDocument) (s : Store) :
    Except StoreError (Unit × Store) := do
  ensureRunStateVersion s runId .verifying expectedVersion
  ensureRunDocumentMatches (.downstreamArtifactDocumentMismatch "verification attempt") s runId
    verified.documentId
  ensureAttemptOrdinal attemptOrdinal verified.synthesisAttemptOrdinal
  let s ← insertVerificationAttempt codec s runId attemptOrdinal verified
  return ((), s)

def completionOutcome (warnings : List PipelineWarning) : PipelineState × Option String :=
  if warnings.isEmpty then
    (.complete, none)
  else
    (.completeWithWarnings, some (
      if warnings.any (·.code = "SEMANTIC_VERIFICATION_DEFERRED") then
        "semantic_verification_deferred"
      else if warnings.any (·.code = "SEMANTIC_CLAIMS_WITHHELD") then
        "semantic_claims_withheld"
      else
        "completed_with_warnings"))

def completeSummary (codec : Codec) (amb : Ambient) (runId : String) (expectedVersion : Nat)
    (summary : SummaryArtifact) (citations : CitationArtifact) (s : Store) :
    Except StoreError (PipelineRun × Store) := do
  ensureRunDocumentMatches (.downstreamArtifactDocumentMismatch "summary") s runId
    summary.documentId
  ensureRunDocumentMatches (.downstreamArtifactDocumentMismatch "citation") s runId
    citations.documentId
  refuseIf (citations.summaryIntegrityHash ≠ summary.integrityHash ∨
      citations.renderedText ≠ summary.text)
    (.downstreamArtifactMetadataMismatch "citation" runId)
  let s ← insertSummaryArtifact codec s runId summary
  let s ← insertCitationArtifact codec s runId citations
  let (nextState, reason) := completionOutcome summary.warnings
  transitionInTx amb 0 s runId .verified expectedVersion nextState (some .verify) reason
    { warnings := some summary.warnings }

/-! ## Failing and cancelling -/

def failDownstreamStage (expectedState : PipelineState) (stage : PipelineStage) (amb : Ambient)
    (runId : String) (expectedVersion : Nat) (failure : PipelineFailure) (s : Store) :
    Except StoreError (PipelineRun × Store) :=
  transitionInTx amb 0 s runId expectedState expectedVersion .failed (some stage)
    (some failure.code) { failure := some failure }

def failParsing := failDownstreamStage .parsing .parse
def failNormalization := failDownstreamStage .normalizing .normalize
def failStructuring := failDownstreamStage .structuring .structure
def failChunking := failDownstreamStage .chunking .chunk
def failAnalysis := failDownstreamStage .analyzing .analyze
def failSynthesis := failDownstreamStage .synthesizing .synthesize
def failVerification := failDownstreamStage .verifying .verify
def failSummary := failDownstreamStage .verified .verify

def requestCancellation (amb : Ambient) (runId : String) (expectedVersion : Nat) (s : Store) :
    Except StoreError (PipelineRun × Store) := do
  let run ← okOrElse (getPipelineRun s runId) (.runNotFound runId)
  refuseIf (run.state.canRequestCancellation = false) (.cancellationNotAllowed runId run.state)
  transitionInTx amb 0 s runId run.state expectedVersion .cancelling run.state.activeStage
    (some "cancellation_requested") { cancellationRequested := some true }

def completeCancellation (amb : Ambient) (runId : String) (expectedVersion : Nat) (s : Store) :
    Except StoreError (PipelineRun × Store) := do
  let run ← okOrElse (getPipelineRun s runId) (.runNotFound runId)
  refuseIf (run.state ≠ .cancelling ∨ run.cancellationRequested = false)
    (.cancellationNotAllowed runId run.state)
  transitionInTx amb 0 s runId .cancelling expectedVersion .cancelled run.currentStage
    (some "cancellation_completed") { cancellationRequested := some true }

/-- A cancelling run is cancelled instead, whatever state and version the caller expected. -/
def failBackgroundExecution (amb : Ambient) (runId : String) (expectedState : PipelineState)
    (expectedVersion : Nat) (failure : PipelineFailure) (s : Store) :
    Except StoreError (PipelineRun × Store) := do
  let persisted ← okOrElse (getPipelineRun s runId) (.runNotFound runId)
  if persisted.state = .cancelling then
    refuseIf (persisted.cancellationRequested = false)
      (.cancellationNotAllowed runId persisted.state)
    transitionInTx amb 0 s runId .cancelling persisted.stateVersion .cancelled
      persisted.currentStage (some "cancellation_completed") { cancellationRequested := some true }
  else
    refuseIf (expectedState.canRequestCancellation = false)
      (.cancellationNotAllowed runId expectedState)
    transitionInTx amb 0 s runId expectedState expectedVersion .failed failure.stage
      (some failure.code) { failure := some failure }

/-! ## Restart reconciliation -/

inductive InterruptedRunAction where
  | fail (failure : PipelineFailure)
  | completeCancellation
  deriving DecidableEq, Repr

structure InterruptedRunTransition where
  runId : String
  expectedState : PipelineState
  expectedVersion : Nat
  action : InterruptedRunAction
  deriving DecidableEq, Repr

def reconcileInterruptedRun (amb : Ambient) (reading : Nat) (candidate : InterruptedRunTransition)
    (s : Store) : Except StoreError (PipelineRun × Store) :=
  match candidate.action with
  | .fail failure => do
    let stage ← okOrElse candidate.expectedState.activeStage
      (.invalidRecoveryTransition candidate.expectedState)
    refuseIf (failure.code ≠ "PROCESS_INTERRUPTED" ∨ failure.stage ≠ some stage ∨
        failure.recoverable = false)
      (.invalidRecoveryTransition candidate.expectedState)
    transitionInTx amb reading s candidate.runId candidate.expectedState candidate.expectedVersion
      .failed (some stage) (some failure.code) { failure := some failure }
  | .completeCancellation => do
    refuseIf (candidate.expectedState ≠ .cancelling)
      (.invalidRecoveryTransition candidate.expectedState)
    let persisted ← okOrElse (getPipelineRun s candidate.runId) (.runNotFound candidate.runId)
    refuseIf (persisted.state = candidate.expectedState ∧
        persisted.stateVersion = candidate.expectedVersion ∧
        persisted.cancellationRequested = false)
      (.invalidRecoveryTransition candidate.expectedState)
    transitionInTx amb reading s candidate.runId .cancelling candidate.expectedVersion .cancelled
      none (some "cancellation_completed_after_restart") { cancellationRequested := some true }

/-- One transaction over all candidates: the first refusal rolls back the rest. -/
def reconcileInterruptedRunsInTransaction (amb : Ambient) :
    Nat → List InterruptedRunTransition → Store → Except StoreError (List PipelineRun × Store)
  | _, [], s => .ok ([], s)
  | reading, candidate :: rest, s => do
    let (recovered, s) ← reconcileInterruptedRun amb reading candidate s
    let (others, s) ← reconcileInterruptedRunsInTransaction amb (reading + 1) rest s
    return (recovered :: others, s)

end DocumentSummarizer.Pipeline
