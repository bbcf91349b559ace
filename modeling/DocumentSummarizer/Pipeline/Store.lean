import Mathlib.Data.List.AList
import DocumentSummarizer.Pipeline.State
import DocumentSummarizer.Pipeline.SummaryContracts

/-! # The pipeline store

The SQLite tables as a record of keyed tables, with the reads and the single
statements the operations are built from.  An insert answers as the table's
`CHECK`, `PRIMARY KEY`, `UNIQUE` and `FOREIGN KEY` constraints do; a row holds
the value its JSON column encodes.
-/

namespace DocumentSummarizer.Pipeline

open Library

abbrev Table (ρ : Type) := AList (fun _ : String => ρ)

inductive Constraint where
  | check
  | primaryKey
  | unique
  | foreignKey
  | integerRange
  deriving DecidableEq, Repr

inductive StoreError where
  | sqlite (table : String) (violated : Constraint)
  | runNotFound (runId : String)
  | documentNotFound (documentId : String)
  | parsedArtifactNotFound (runId : String)
  | normalizedArtifactNotFound (runId : String)
  | structuredArtifactNotFound (runId : String)
  | chunkedArtifactNotFound (runId : String)
  | invalidIngestion (reason : String)
  | invalidRequestOwner (reason : String)
  | artifactDocumentMismatch (artifactDocumentId runDocumentId : String)
  | normalizedArtifactDocumentMismatch (artifactDocumentId runDocumentId : String)
  | normalizedArtifactMetadataMismatch (runId : String)
  | normalizedArtifactIntegrityMismatch (runId : String)
  | structuredArtifactDocumentMismatch (artifactDocumentId runDocumentId : String)
  | structuredArtifactMetadataMismatch (runId : String)
  | structuredArtifactIntegrityMismatch (runId : String)
  | chunkedArtifactDocumentMismatch (artifactDocumentId runDocumentId : String)
  | chunkedArtifactMetadataMismatch (runId : String)
  | chunkedArtifactIntegrityMismatch (runId : String)
  | downstreamArtifactNotFound (artifactKind runId : String)
  | downstreamArtifactDocumentMismatch (artifactKind artifactDocumentId runDocumentId : String)
  | downstreamArtifactMetadataMismatch (artifactKind runId : String)
  | downstreamArtifactIntegrityMismatch (artifactKind runId : String)
  | staleWrite (runId : String)
  | attemptOrdinalMismatch (expected actual : Nat)
  | invalidRecoveryTransition (state : PipelineState)
  | invalidRetrySource (runId reason : String)
  | retryAlreadyExists (sourceRunId retryRunId : String)
  | modelProfileMismatch (runId : String)
  | summaryProfileMismatch (runId : String)
  | summaryProfileUnavailable (runId : String)
  | invalidOcrHandoff (reason : String)
  | cancellationNotAllowed (runId : String) (state : PipelineState)
  | transition (error : TransitionError)
  deriving DecidableEq, Repr

/-! ## Artifacts -/

/-- One kind for each table that holds a run's artifact. -/
inductive ArtifactKind where
  | parsed
  | normalized
  | structured
  | chunked
  | analyzed
  | synthesized
  | verified
  | summary
  | citation
  deriving DecidableEq, Repr

namespace ArtifactKind

abbrev Artifact : ArtifactKind → Type
  | .parsed => ParsedDocument
  | .normalized => NormalizedDocument
  | .structured => StructuredDocument
  | .chunked => ChunkedDocument
  | .analyzed => AnalyzedDocument
  | .synthesized => SynthesizedDocument
  | .verified => VerifiedDocument
  | .summary => SummaryArtifact
  | .citation => CitationArtifact

def documentId : (kind : ArtifactKind) → kind.Artifact → String
  | .parsed => ParsedDocument.documentId
  | .normalized => NormalizedDocument.documentId
  | .structured => StructuredDocument.documentId
  | .chunked => ChunkedDocument.documentId
  | .analyzed => AnalyzedDocument.documentId
  | .synthesized => SynthesizedDocument.documentId
  | .verified => VerifiedDocument.documentId
  | .summary => SummaryArtifact.documentId
  | .citation => CitationArtifact.documentId

def version : (kind : ArtifactKind) → kind.Artifact → String
  | .parsed => ParsedDocument.parserVersion
  | .normalized => NormalizedDocument.normalizationVersion
  | .structured => StructuredDocument.structureVersion
  | .chunked => ChunkedDocument.chunkingVersion
  | .analyzed => AnalyzedDocument.analysisVersion
  | .synthesized => SynthesizedDocument.synthesisVersion
  | .verified => VerifiedDocument.verificationVersion
  | .summary => SummaryArtifact.summaryVersion
  | .citation => CitationArtifact.citationVersion

def table : ArtifactKind → String
  | .parsed => "parsed_documents"
  | .normalized => "normalized_documents"
  | .structured => "structured_documents"
  | .chunked => "chunked_documents"
  | .analyzed => "analyzed_documents"
  | .synthesized => "synthesized_documents"
  | .verified => "verified_documents"
  | .summary => "summary_artifacts"
  | .citation => "citation_artifacts"

def label : ArtifactKind → String
  | .parsed => "parsed"
  | .normalized => "normalized"
  | .structured => "structured"
  | .chunked => "chunked"
  | .analyzed => "analyzed"
  | .synthesized => "synthesized"
  | .verified => "verified"
  | .summary => "summary"
  | .citation => "citation"

def notFound (kind : ArtifactKind) (runId : String) : StoreError :=
  match kind with
  | .parsed => .parsedArtifactNotFound runId
  | .normalized => .normalizedArtifactNotFound runId
  | .structured => .structuredArtifactNotFound runId
  | .chunked => .chunkedArtifactNotFound runId
  | _ => .downstreamArtifactNotFound kind.label runId

def documentMismatch (kind : ArtifactKind) (artifactDocumentId runDocumentId : String) :
    StoreError :=
  match kind with
  | .parsed => .artifactDocumentMismatch artifactDocumentId runDocumentId
  | .normalized => .normalizedArtifactDocumentMismatch artifactDocumentId runDocumentId
  | .structured => .structuredArtifactDocumentMismatch artifactDocumentId runDocumentId
  | .chunked => .chunkedArtifactDocumentMismatch artifactDocumentId runDocumentId
  | _ => .downstreamArtifactDocumentMismatch kind.label artifactDocumentId runDocumentId

def integrityMismatch (kind : ArtifactKind) (runId : String) : StoreError :=
  match kind with
  | .normalized => .normalizedArtifactIntegrityMismatch runId
  | .structured => .structuredArtifactIntegrityMismatch runId
  | .chunked => .chunkedArtifactIntegrityMismatch runId
  | _ => .downstreamArtifactIntegrityMismatch kind.label runId

def metadataMismatch (kind : ArtifactKind) (runId : String) : StoreError :=
  match kind with
  | .normalized => .normalizedArtifactMetadataMismatch runId
  | .structured => .structuredArtifactMetadataMismatch runId
  | .chunked => .chunkedArtifactMetadataMismatch runId
  | _ => .downstreamArtifactMetadataMismatch kind.label runId

end ArtifactKind

/-- What the store takes from SHA-256, `serde_json` and SQLite's JSON functions. -/
structure Codec where
  /-- `sha256_hex(to_json(artifact))` -/
  artifactHash : (kind : ArtifactKind) → kind.Artifact → String
  /-- `sha256(to_vec(tuple))` in hexadecimal -/
  canonicalHash : CanonicalTuple → String
  sha256Hex : List UInt8 → String
  /-- The bound on `ocr_pdf_byte_size` that the request JSON selects. -/
  ocrPdfByteLimit : String → Nat

structure ArtifactRow (kind : ArtifactKind) where
  documentId : String
  version : String
  artifactHash : String
  artifact : kind.Artifact

/-! ## OCR handoffs -/

inductive OcrPhase where
  | prepared
  | submissionUncertain
  | running
  | outputReady
  | childAdmitted
  | completed
  | failed
  deriving DecidableEq, Repr

structure OcrHandoff where
  handoffId : String
  rootRunId : String
  rootDocumentId : String
  sourceArtifactId : String
  sourceByteSize : Nat
  sourceSha256 : String
  sourceDisplayName : String
  sourceBytes : List UInt8
  providerAppId : String
  providerInstanceId : String
  providerJobId : String
  providerRequestJson : String
  providerRequestSha256 : String
  phase : OcrPhase
  providerStatusJson : Option String
  ocrPdfArtifactId : Option String
  ocrPdfSha256 : Option String
  ocrPdfBytes : Option (List UInt8)
  textArtifactId : Option String
  textSha256 : Option String
  textBytes : Option (List UInt8)
  childDocumentId : String
  childRunId : String
  derivedPath : String
  errorCode : Option String
  errorMessage : Option String
  errorRetryable : Option Bool
  deriving DecidableEq, Repr

structure OcrLineage where
  handoffId : String
  producerOutputArtifactId : String
  childRunId : String
  deriving DecidableEq, Repr

inductive RequestOwner where
  | pipelineRun
  | profileSuggestion
  deriving DecidableEq, Repr

/-! ## Tables -/

structure Store where
  documents : Table IngestedDocument
  pipelineRuns : Table PipelineRun
  pipelineEvents : List PipelineEvent
  artifacts : (kind : ArtifactKind) → Table (ArtifactRow kind)
  synthesisAttempts : AList (fun _ : String × Nat => ArtifactRow .synthesized)
  verificationAttempts : AList (fun _ : String × Nat => ArtifactRow .verified)
  pipelineRunRetries : Table RetryLineage
  modelProfiles : Table ModelProfileSnapshot
  summaryProfiles : Table SummaryProfile
  modelRequestOwners : Table RequestOwner
  profileSuggestionRequests : AList (fun _ : String × String => String)
  ocrHandoffs : List OcrHandoff
  ocrLineage : List OcrLineage

namespace Store

/-- A freshly created database. -/
def empty : Store where
  documents := ∅
  pipelineRuns := ∅
  pipelineEvents := []
  artifacts _ := ∅
  synthesisAttempts := ∅
  verificationAttempts := ∅
  pipelineRunRetries := ∅
  modelProfiles := ∅
  summaryProfiles := ∅
  modelRequestOwners := ∅
  profileSuggestionRequests := ∅
  ocrHandoffs := []
  ocrLineage := []

def setRun (s : Store) (runId : String) (run : PipelineRun) : Store :=
  { s with pipelineRuns := s.pipelineRuns.insert runId run }

def setArtifact (s : Store) (kind : ArtifactKind) (runId : String) (row : ArtifactRow kind) :
    Store :=
  { s with artifacts := Function.update s.artifacts kind ((s.artifacts kind).insert runId row) }

end Store

/-- The row's `run_id` column is the key it is stored under. -/
def getPipelineRun (s : Store) (runId : String) : Option PipelineRun :=
  (s.pipelineRuns.lookup runId).map fun row => { row with runId := runId }

def getDocument (s : Store) (documentId : String) : Option IngestedDocument :=
  s.documents.lookup documentId

def getRunModelProfile (s : Store) (runId : String) : Option ModelProfileSnapshot :=
  s.modelProfiles.lookup runId

def getRunSummaryProfile (s : Store) (runId : String) : Option SummaryProfile :=
  s.summaryProfiles.lookup runId

def getRetryLineageForSource (s : Store) (sourceRunId : String) : Option RetryLineage :=
  (s.pipelineRunRetries.entries.map Sigma.snd).find? (·.sourceRunId = sourceRunId)

/-- `SELECT … WHERE run_id = ?1 ORDER BY sequence_no` -/
def listPipelineEvents (s : Store) (runId : String) : List PipelineEvent :=
  (s.pipelineEvents.filter (·.runId = runId)).mergeSort (·.sequenceNo ≤ ·.sequenceNo)

def getParsedDocument (s : Store) (runId : String) : Option ParsedDocument :=
  ((s.artifacts .parsed).lookup runId).map (·.artifact)

/-- The read behind every artifact table that records a hash: joined with the
run, it answers an error when the row was altered. -/
def getArtifact (codec : Codec) (s : Store) (kind : ArtifactKind) (runId : String) :
    Except StoreError (Option kind.Artifact) :=
  match (s.artifacts kind).lookup runId, getPipelineRun s runId with
  | some row, some run => do
    refuseIf (codec.artifactHash kind row.artifact ≠ row.artifactHash)
      (kind.integrityMismatch runId)
    refuseIf (kind.documentId row.artifact ≠ row.documentId ∨
        kind.version row.artifact ≠ row.version ∨ row.documentId ≠ run.documentId)
      (kind.metadataMismatch runId)
    return some row.artifact
  | _, _ => .ok none

def getNormalizedDocument (codec : Codec) (s : Store) (runId : String) :=
  getArtifact codec s .normalized runId

def getStructuredDocument (codec : Codec) (s : Store) (runId : String) :=
  getArtifact codec s .structured runId

def getChunkedDocument (codec : Codec) (s : Store) (runId : String) :=
  getArtifact codec s .chunked runId

def getAnalyzedDocument (codec : Codec) (s : Store) (runId : String) :=
  getArtifact codec s .analyzed runId

def getSynthesizedDocument (codec : Codec) (s : Store) (runId : String) :=
  getArtifact codec s .synthesized runId

def summaryArtifactExists (s : Store) (runId : String) : Bool :=
  ((s.artifacts .summary).lookup runId).isSome

/-! ## Statements -/

def insertDocument (s : Store) (document : IngestedDocument) : Except StoreError Store := do
  refuseIf (9223372036854775807 < document.byteSize)
    (.invalidIngestion "source file exceeds SQLite integer range")
  refuseIf (document.documentId ∈ s.documents) (.sqlite "documents" .primaryKey)
  return { s with documents := s.documents.insert document.documentId document }

/-- Inserts the run and, through the trigger, its request owner. -/
def insertPipelineRun (s : Store) (run : PipelineRun) : Except StoreError Store := do
  refuseIf (run.stateVersion < 1) (.sqlite "pipeline_runs" .check)
  refuseIf (run.runId ∈ s.pipelineRuns) (.sqlite "pipeline_runs" .primaryKey)
  refuseIf (run.runId ∈ s.modelRequestOwners) (.sqlite "model_request_owners" .primaryKey)
  refuseIf (run.documentId ∉ s.documents) (.sqlite "pipeline_runs" .foreignKey)
  return { s.setRun run.runId run with
    modelRequestOwners := s.modelRequestOwners.insert run.runId .pipelineRun }

def insertPipelineEvent (s : Store) (event : PipelineEvent) : Except StoreError Store := do
  refuseIf (∃ e ∈ s.pipelineEvents, e.eventId = event.eventId)
    (.sqlite "pipeline_events" .primaryKey)
  refuseIf (∃ e ∈ s.pipelineEvents, e.runId = event.runId ∧ e.sequenceNo = event.sequenceNo)
    (.sqlite "pipeline_events" .unique)
  refuseIf (event.runId ∉ s.pipelineRuns) (.sqlite "pipeline_events" .foreignKey)
  return { s with pipelineEvents := s.pipelineEvents ++ [event] }

def ArtifactRow.of (codec : Codec) (kind : ArtifactKind) (artifact : kind.Artifact) :
    ArtifactRow kind where
  documentId := kind.documentId artifact
  version := kind.version artifact
  artifactHash := codec.artifactHash kind artifact
  artifact := artifact

/-- The insert shared by the artifact tables. -/
def insertArtifact (codec : Codec) (s : Store) (kind : ArtifactKind) (runId : String)
    (artifact : kind.Artifact) : Except StoreError Store := do
  refuseIf (runId ∈ s.artifacts kind) (.sqlite kind.table .primaryKey)
  refuseIf (runId ∉ s.pipelineRuns ∨ kind.documentId artifact ∉ s.documents)
    (.sqlite kind.table .foreignKey)
  return s.setArtifact kind runId (.of codec kind artifact)

def insertParsedDocument (codec : Codec) (s : Store) (runId : String) (parsed : ParsedDocument) :=
  insertArtifact codec s .parsed runId parsed

def insertNormalizedDocument (codec : Codec) (s : Store) (runId : String)
    (normalized : NormalizedDocument) :=
  insertArtifact codec s .normalized runId normalized

def insertStructuredDocument (codec : Codec) (s : Store) (runId : String)
    (structured : StructuredDocument) :=
  insertArtifact codec s .structured runId structured

def insertChunkedDocument (codec : Codec) (s : Store) (runId : String)
    (chunked : ChunkedDocument) :=
  insertArtifact codec s .chunked runId chunked

def insertAnalyzedDocument (codec : Codec) (s : Store) (runId : String)
    (analyzed : AnalyzedDocument) :=
  insertArtifact codec s .analyzed runId analyzed

def insertSynthesizedDocument (codec : Codec) (s : Store) (runId : String)
    (synthesized : SynthesizedDocument) :=
  insertArtifact codec s .synthesized runId synthesized

def insertVerifiedDocument (codec : Codec) (s : Store) (runId : String)
    (verified : VerifiedDocument) :=
  insertArtifact codec s .verified runId verified

def insertSummaryArtifact (codec : Codec) (s : Store) (runId : String)
    (summary : SummaryArtifact) : Except StoreError Store := do
  refuseIf (codec.canonicalHash summary.canonical ≠ summary.integrityHash)
    (ArtifactKind.summary.integrityMismatch runId)
  insertArtifact codec s .summary runId summary

def insertCitationArtifact (codec : Codec) (s : Store) (runId : String)
    (citations : CitationArtifact) : Except StoreError Store := do
  refuseIf (codec.canonicalHash citations.canonical ≠ citations.integrityHash)
    (ArtifactKind.citation.integrityMismatch runId)
  insertArtifact codec s .citation runId citations

def insertSynthesisAttempt (codec : Codec) (s : Store) (runId : String) (attemptOrdinal : Nat)
    (synthesized : SynthesizedDocument) : Except StoreError Store := do
  refuseIf (1 < attemptOrdinal) (.sqlite "summary_synthesis_attempts" .check)
  refuseIf ((runId, attemptOrdinal) ∈ s.synthesisAttempts)
    (.sqlite "summary_synthesis_attempts" .primaryKey)
  refuseIf (runId ∉ s.pipelineRuns ∨ synthesized.documentId ∉ s.documents)
    (.sqlite "summary_synthesis_attempts" .foreignKey)
  return { s with
    synthesisAttempts := s.synthesisAttempts.insert (runId, attemptOrdinal)
      (.of codec .synthesized synthesized) }

def insertVerificationAttempt (codec : Codec) (s : Store) (runId : String) (attemptOrdinal : Nat)
    (verified : VerifiedDocument) : Except StoreError Store := do
  refuseIf (1 < attemptOrdinal) (.sqlite "summary_verification_attempts" .check)
  refuseIf ((runId, attemptOrdinal) ∈ s.verificationAttempts)
    (.sqlite "summary_verification_attempts" .primaryKey)
  refuseIf ((runId, attemptOrdinal) ∉ s.synthesisAttempts ∨ verified.documentId ∉ s.documents)
    (.sqlite "summary_verification_attempts" .foreignKey)
  return { s with
    verificationAttempts := s.verificationAttempts.insert (runId, attemptOrdinal)
      (.of codec .verified verified) }

/-! ## Transitions -/

structure TransitionPatch where
  warnings : Option (List PipelineWarning) := none
  failure : Option PipelineFailure := none
  cancellationRequested : Option Bool := none

def TransitionPatch.apply (patch : TransitionPatch) (run : PipelineRun) : PipelineRun :=
  { run with
    warnings := patch.warnings.getD run.warnings
    failure := patch.failure.or run.failure
    cancellationRequested := patch.cancellationRequested.getD run.cancellationRequested }

/-- `COALESCE(MAX(sequence_no), -1) + 1` -/
def nextSequenceNo (events : List PipelineEvent) : Nat :=
  (events.map (·.sequenceNo)).max?.elim 0 (· + 1)

/-- `UPDATE pipeline_runs … WHERE run_id = ? AND state = ? AND state_version = ?`,
with the number of rows it changed. -/
def updatePipelineRun (s : Store) (runId : String) (expectedState : PipelineState)
    (expectedVersion : Nat) (run : PipelineRun) : Nat × Store :=
  match getPipelineRun s runId with
  | some row =>
    if row.state = expectedState ∧ row.stateVersion = expectedVersion then
      (1, s.setRun runId run)
    else
      (0, s)
  | none => (0, s)

def transitionInTx (amb : Ambient) (reading : Nat) (s : Store) (runId : String)
    (expectedState : PipelineState) (expectedVersion : Nat) (nextState : PipelineState)
    (stage : Option PipelineStage) (reason : Option String) (patch : TransitionPatch) :
    Except StoreError (PipelineRun × Store) := do
  let run ← okOrElse (getPipelineRun s runId) (.runNotFound runId)
  let sequenceNo := nextSequenceNo (s.pipelineEvents.filter (·.runId = runId))
  refuseIf (u32Max < sequenceNo) (.sqlite "pipeline_events" .integerRange)
  let (moved, event) ← (StateMachine.transition run expectedState nextState expectedVersion
    sequenceNo stage reason (amb.now reading) (amb.newV4 reading)).mapError .transition
  let run := patch.apply moved
  let (changed, s) := updatePipelineRun s runId expectedState expectedVersion run
  refuseIf (changed ≠ 1) (.staleWrite runId)
  let s ← insertPipelineEvent s event
  return (run, s)

end DocumentSummarizer.Pipeline
