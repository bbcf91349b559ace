import Mathlib

/-! # Pipeline contracts

The records that move between the pipeline stages and the store.  Instants are
opaque ticks; `u32` and `u64` counters are naturals, with the width spelled out
where the code checks it.
-/

namespace DocumentSummarizer.Pipeline

abbrev DateTime := Nat

/-- `u32::MAX`. -/
def u32Max : Nat := 4294967295

inductive PipelineState where
  | received
  | ingesting
  | ingested
  | parsing
  | parsed
  | visualAnalysisRequired
  | visualAnalyzing
  | visualAnalyzed
  | normalizing
  | normalized
  | structuring
  | structured
  | chunking
  | chunked
  | analyzing
  | analyzed
  | synthesizing
  | synthesized
  | verifying
  | verified
  | complete
  | completeWithWarnings
  | failed
  | cancelling
  | cancelled
  deriving DecidableEq, Repr

inductive PipelineStage where
  | ingest
  | parse
  | normalize
  | «structure»
  | chunk
  | analyze
  | synthesize
  | verify
  deriving DecidableEq, Repr

namespace PipelineState

def activeStage : PipelineState → Option PipelineStage
  | .ingesting => some .ingest
  | .parsing => some .parse
  | .normalizing => some .normalize
  | .structuring => some .structure
  | .chunking => some .chunk
  | .analyzing => some .analyze
  | .synthesizing => some .synthesize
  | .verifying => some .verify
  | _ => none

def canRequestCancellation (state : PipelineState) : Bool :=
  state.activeStage.isSome || match state with
    | .ingested | .parsed | .normalized | .structured | .chunked | .analyzed
    | .synthesized | .verified => true
    | _ => false

/-- The states without an outgoing edge. -/
def isTerminal : PipelineState → Bool
  | .complete | .completeWithWarnings | .failed | .cancelled => true
  | _ => false

end PipelineState

structure PipelineProgress where
  totalUnits : Nat
  completedUnits : Nat
  failedUnits : Nat
  deriving DecidableEq, Repr

structure PipelineWarning where
  code : String
  message : String
  stage : Option PipelineStage
  deriving DecidableEq, Repr

structure PipelineFailure where
  code : String
  message : String
  stage : Option PipelineStage
  recoverable : Bool
  deriving DecidableEq, Repr

inductive SummaryProfile where
  | general
  | story
  | contract
  deriving DecidableEq, Repr

structure PipelineRun where
  runId : String
  documentId : String
  state : PipelineState
  stateVersion : Nat
  pipelineVersion : String
  createdAt : DateTime
  startedAt : Option DateTime
  updatedAt : DateTime
  completedAt : Option DateTime
  currentStage : Option PipelineStage
  progress : PipelineProgress
  warnings : List PipelineWarning
  failure : Option PipelineFailure
  cancellationRequested : Bool
  resumable : Bool
  deriving DecidableEq, Repr

structure PipelineEvent where
  eventId : String
  runId : String
  sequenceNo : Nat
  previousState : Option PipelineState
  nextState : PipelineState
  timestamp : DateTime
  stage : Option PipelineStage
  workUnitId : Option String
  reason : Option String
  deriving DecidableEq, Repr

inductive RetryCheckpoint where
  | ingested
  deriving DecidableEq, Repr

structure RetryLineage where
  retryRunId : String
  sourceRunId : String
  checkpoint : RetryCheckpoint
  createdAt : DateTime
  deriving DecidableEq, Repr

def PipelineRun.retryCheckpoint (run : PipelineRun) : Option RetryCheckpoint := do
  let failure ← run.failure
  if run.state ≠ .failed ∨ ¬ run.resumable ∨ ¬ failure.recoverable ∨ failure.stage.isNone ∨
      failure.stage = some .ingest then
    none
  else
    some .ingested

inductive SourceType where
  | nativeText
  | ocrText
  deriving DecidableEq, Repr

def SourceType.isTextual : SourceType → Bool
  | .nativeText | .ocrText => true

structure IngestedDocument where
  documentId : String
  originalFilename : String
  fileType : String
  sourceType : SourceType
  byteSize : Nat
  contentHash : String
  localSourcePath : String
  createdAt : DateTime
  deriving DecidableEq, Repr

structure ParsedPage where
  pageNumber : Nat
  text : String
  warnings : List PipelineWarning
  requiresVisualProcessing : Bool
  deriving DecidableEq, Repr

structure ParsedDocument where
  documentId : String
  parserId : String
  parserVersion : String
  sourceType : SourceType
  pages : List ParsedPage
  warnings : List PipelineWarning
  deriving DecidableEq, Repr

def ParsedDocument.requiresOcr (parsed : ParsedDocument) : Bool :=
  parsed.sourceType == .nativeText && parsed.pages.any (·.requiresVisualProcessing)

structure SourceSpan where
  pageStart : Nat
  pageEnd : Nat
  sectionId : Option String
  sourceType : SourceType
  deriving DecidableEq, Repr

inductive NormalizedBlockKind where
  | text
  | unknown
  deriving DecidableEq, Repr

structure NormalizedBlock where
  blockId : String
  kind : NormalizedBlockKind
  text : String
  source : SourceSpan
  deriving DecidableEq, Repr

structure NormalizedPage where
  pageNumber : Nat
  content : List NormalizedBlock
  warnings : List PipelineWarning
  requiresVisualProcessing : Bool
  deriving DecidableEq, Repr

structure NormalizedDocument where
  documentId : String
  normalizationVersion : String
  pages : List NormalizedPage
  warnings : List PipelineWarning
  deriving DecidableEq, Repr

structure StructurePage where
  pageNumber : Nat
  warnings : List PipelineWarning
  requiresVisualProcessing : Bool
  deriving DecidableEq, Repr

inductive StructureNodeKind where
  | document
  | «section»
  | subsection
  | unstructured
  deriving DecidableEq, Repr

structure StructureNode where
  nodeId : String
  kind : StructureNodeKind
  title : Option String
  level : Nat
  blockIds : List String
  sourceSpans : List SourceSpan
  children : List StructureNode
  deriving Repr

structure StructuredDocument where
  documentId : String
  structureVersion : String
  pages : List StructurePage
  nodes : List StructureNode
  warnings : List PipelineWarning
  deriving Repr

structure DocumentChunk where
  chunkId : String
  ordinal : Nat
  structureNodeId : String
  text : String
  blockIds : List String
  sourceSpans : List SourceSpan
  warnings : List PipelineWarning
  deriving DecidableEq, Repr

structure ChunkedDocument where
  documentId : String
  chunkingVersion : String
  chunks : List DocumentChunk
  warnings : List PipelineWarning
  deriving DecidableEq, Repr

end DocumentSummarizer.Pipeline
