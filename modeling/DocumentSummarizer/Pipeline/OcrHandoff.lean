import DocumentSummarizer.Pipeline.Operations

/-! # OCR handoffs

A parsed root that needs OCR is handed to a provider; the provider's output is
admitted as a derived child run, and an interrupted child is rewound to its last
checkpoint instead of being failed.
-/

namespace DocumentSummarizer.Pipeline

open Library

structure NewOcrHandoff where
  handoffId : String
  rootRunId : String
  rootDocumentId : String
  sourceArtifactId : String
  sourceBytes : List UInt8
  sourceSha256 : String
  sourceDisplayName : String
  providerAppId : String
  providerInstanceId : String
  providerJobId : String
  providerRequestJson : String
  childDocumentId : String
  childRunId : String
  derivedPath : String
  deriving DecidableEq, Repr

structure OcrOutput where
  providerStatusJson : String
  pdfArtifactId : String
  pdfSha256 : String
  pdfBytes : List UInt8
  textArtifactId : String
  textSha256 : String
  textBytes : List UInt8
  deriving DecidableEq, Repr

/-- `length(x) = 64 AND x NOT GLOB '*[^0-9a-f]*'` -/
def isSha256Hex (value : String) : Bool :=
  value.length == 64 && value.toList.all fun c => c.isDigit || ('a' ≤ c && c ≤ 'f')

def OcrHandoff.withinChecks (codec : Codec) (h : OcrHandoff) : Bool :=
  0 < h.sourceByteSize && h.sourceByteSize ≤ 33554432 && isSha256Hex h.sourceSha256 &&
  h.sourceBytes.length == h.sourceByteSize && h.providerAppId == "document-ocr" &&
  isSha256Hex h.providerRequestSha256 && h.ocrPdfSha256.all isSha256Hex &&
  h.ocrPdfBytes.all (fun b => 0 < b.length && b.length ≤ codec.ocrPdfByteLimit h.providerRequestJson) &&
  h.textSha256.all isSha256Hex &&
  h.textBytes.all (fun b => 0 < b.length && b.length ≤ 262144) &&
  h.ocrPdfBytes.isSome == h.ocrPdfArtifactId.isSome &&
  h.ocrPdfBytes.isSome == h.ocrPdfSha256.isSome &&
  h.textBytes.isSome == h.textArtifactId.isSome && h.textBytes.isSome == h.textSha256.isSome

/-- The two rows share a value of a `UNIQUE` column. -/
def OcrHandoff.collides (a b : OcrHandoff) : Bool :=
  a.rootRunId == b.rootRunId || a.sourceArtifactId == b.sourceArtifactId ||
  a.providerJobId == b.providerJobId || a.childDocumentId == b.childDocumentId ||
  a.childRunId == b.childRunId || a.derivedPath == b.derivedPath ||
  (a.ocrPdfArtifactId.isSome && a.ocrPdfArtifactId == b.ocrPdfArtifactId) ||
  (a.textArtifactId.isSome && a.textArtifactId == b.textArtifactId)

def getOcrHandoff (s : Store) (handoffId : String) : Option OcrHandoff :=
  s.ocrHandoffs.find? (·.handoffId = handoffId)

def getOcrHandoffForRoot (s : Store) (rootRunId : String) : Option OcrHandoff :=
  s.ocrHandoffs.find? (·.rootRunId = rootRunId)

def isAdmittedOcrChild (s : Store) (childRunId : String) : Bool :=
  s.ocrHandoffs.any fun h => h.childRunId = childRunId ∧ h.phase = .childAdmitted

def insertOcrHandoff (codec : Codec) (s : Store) (handoff : OcrHandoff) :
    Except StoreError Store := do
  refuseIf (handoff.withinChecks codec = false) (.sqlite "ocr_handoffs" .check)
  refuseIf ((getOcrHandoff s handoff.handoffId).isSome) (.sqlite "ocr_handoffs" .primaryKey)
  refuseIf (s.ocrHandoffs.any handoff.collides = true) (.sqlite "ocr_handoffs" .unique)
  refuseIf (handoff.rootRunId ∉ s.pipelineRuns ∨ handoff.rootDocumentId ∉ s.documents)
    (.sqlite "ocr_handoffs" .foreignKey)
  return { s with ocrHandoffs := s.ocrHandoffs ++ [handoff] }

/-- `UPDATE ocr_handoffs … WHERE` the row is selected, with the number of rows changed.
No update writes a key or the columns that identify root and child. -/
def updateOcrHandoffs (codec : Codec) (s : Store) (selected : OcrHandoff → Bool)
    (change : OcrHandoff → OcrHandoff) : Except StoreError (Nat × Store) := do
  let rows := s.ocrHandoffs.map fun h => if selected h then change h else h
  refuseIf (∃ h ∈ rows, h.withinChecks codec = false) (.sqlite "ocr_handoffs" .check)
  refuseIf (¬ rows.Pairwise fun a b => a.collides b = false) (.sqlite "ocr_handoffs" .unique)
  return ((s.ocrHandoffs.filter selected).length, { s with ocrHandoffs := rows })

def preparedHandoff (codec : Codec) (admission : NewOcrHandoff) : OcrHandoff where
  handoffId := admission.handoffId
  rootRunId := admission.rootRunId
  rootDocumentId := admission.rootDocumentId
  sourceArtifactId := admission.sourceArtifactId
  sourceByteSize := admission.sourceBytes.length
  sourceSha256 := admission.sourceSha256
  sourceDisplayName := admission.sourceDisplayName
  sourceBytes := admission.sourceBytes
  providerAppId := admission.providerAppId
  providerInstanceId := admission.providerInstanceId
  providerJobId := admission.providerJobId
  providerRequestJson := admission.providerRequestJson
  providerRequestSha256 :=
    codec.sha256Hex admission.providerRequestJson.toUTF8.data.toList
  phase := .prepared
  providerStatusJson := none
  ocrPdfArtifactId := none
  ocrPdfSha256 := none
  ocrPdfBytes := none
  textArtifactId := none
  textSha256 := none
  textBytes := none
  childDocumentId := admission.childDocumentId
  childRunId := admission.childRunId
  derivedPath := admission.derivedPath
  errorCode := none
  errorMessage := none
  errorRetryable := none

def prepareOcrHandoff (codec : Codec) (admission : NewOcrHandoff) (s : Store) :
    Except StoreError (OcrHandoff × Store) :=
  match getOcrHandoffForRoot s admission.rootRunId with
  | some existing => .ok (existing, s)
  | none => do
    let root ← okOrElse (getPipelineRun s admission.rootRunId) (.runNotFound admission.rootRunId)
    let document ← okOrElse (getDocument s root.documentId) (.documentNotFound root.documentId)
    let parsed ← okOrElse (getParsedDocument s admission.rootRunId)
      (.invalidOcrHandoff "the native parse result is missing")
    refuseIf (root.state ≠ .parsed ∨ root.documentId ≠ admission.rootDocumentId ∨
        document.sourceType ≠ .nativeText ∨ parsed.requiresOcr = false ∨
        admission.sourceBytes.length ≠ document.byteSize ∨
        codec.sha256Hex admission.sourceBytes ≠ document.contentHash ∨
        admission.sourceSha256 ≠ document.contentHash ∨
        admission.providerAppId ≠ "document-ocr")
      (.invalidOcrHandoff
        "the root document is not an exact admitted native source requiring OCR")
    let s ← insertOcrHandoff codec s (preparedHandoff codec admission)
    let admitted ← okOrElse (getOcrHandoff s admission.handoffId)
      (.invalidOcrHandoff "the admitted handoff disappeared")
    return (admitted, s)

def transitionOcrHandoff (codec : Codec) (handoffId : String) (expectedPhase nextPhase : OcrPhase)
    (providerStatusJson : Option String) (s : Store) : Except StoreError (Bool × Store) := do
  let (changed, s) ← updateOcrHandoffs codec s
    (fun h => h.handoffId = handoffId ∧ h.phase = expectedPhase)
    (fun h => { h with
      phase := nextPhase, providerStatusJson := providerStatusJson.or h.providerStatusJson })
  return (changed = 1, s)

def storeOcrOutputs (codec : Codec) (handoffId : String) (expectedPhase : OcrPhase)
    (output : OcrOutput) (s : Store) : Except StoreError (Bool × Store) := do
  let (changed, s) ← updateOcrHandoffs codec s
    (fun h => h.handoffId = handoffId ∧ h.phase = expectedPhase)
    (fun h => { h with
      phase := .outputReady
      providerStatusJson := some output.providerStatusJson
      ocrPdfArtifactId := some output.pdfArtifactId
      ocrPdfSha256 := some output.pdfSha256
      ocrPdfBytes := some output.pdfBytes
      textArtifactId := some output.textArtifactId
      textSha256 := some output.textSha256
      textBytes := some output.textBytes })
  return (changed = 1, s)

def failOcrHandoff (codec : Codec) (handoffId : String) (expectedPhase : OcrPhase)
    (code message : String) (retryable : Bool) (s : Store) :
    Except StoreError (Bool × Store) := do
  let (changed, s) ← updateOcrHandoffs codec s
    (fun h => h.handoffId = handoffId ∧ h.phase = expectedPhase)
    (fun h => { h with
      phase := .failed
      errorCode := some code
      errorMessage := some message
      errorRetryable := some retryable })
  return (changed = 1, s)

def insertOcrLineage (s : Store) (handoff : OcrHandoff) : Except StoreError Store := do
  let producerOutputArtifactId ← okOrElse handoff.ocrPdfArtifactId (.sqlite "ocr_lineage" .check)
  refuseIf (∃ l ∈ s.ocrLineage, l.handoffId = handoff.handoffId)
    (.sqlite "ocr_lineage" .primaryKey)
  refuseIf (∃ l ∈ s.ocrLineage, l.producerOutputArtifactId = producerOutputArtifactId ∨
      l.childRunId = handoff.childRunId) (.sqlite "ocr_lineage" .unique)
  refuseIf ((getOcrHandoff s handoff.handoffId).isNone ∨ handoff.childRunId ∉ s.pipelineRuns)
    (.sqlite "ocr_lineage" .foreignKey)
  return { s with
    ocrLineage := s.ocrLineage ++
      [⟨handoff.handoffId, producerOutputArtifactId, handoff.childRunId⟩] }

def derivedHandoffFailure (childRunId : String) : PipelineFailure where
  code := "OCR_DERIVED_HANDOFF"
  message := "Processing continued in derived run " ++ childRunId
  stage := some .parse
  recoverable := false

/-- The child of an `output_ready` handoff: ingests it and fails the root in one transaction. -/
def admitNewOcrChild (codec : Codec) (amb : Ambient) (handoff current : OcrHandoff)
    (pdfBytes : List UInt8) (document : IngestedDocument) (run : PipelineRun) (s : Store) :
    Except StoreError (PipelineRun × Store) := do
  refuseIf (current.phase ≠ .outputReady ∨ document.documentId ≠ current.childDocumentId ∨
      run.runId ≠ current.childRunId ∨ run.documentId ≠ document.documentId ∨
      document.sourceType ≠ .ocrText ∨ document.localSourcePath ≠ current.derivedPath ∨
      document.byteSize ≠ pdfBytes.length ∨ document.contentHash ≠ codec.sha256Hex pdfBytes ∨
      current.ocrPdfSha256 ≠ some document.contentHash)
    (.invalidOcrHandoff "the derived child does not match its retained OCR output")
  let summaryProfile ← okOrElse (getRunSummaryProfile s current.rootRunId)
    (.summaryProfileUnavailable current.rootRunId)
  let (ingested, s) ← persistIngestionInTransaction amb s document run summaryProfile
  let (copiedProfile, s) ← copyModelProfile s current.childRunId current.rootRunId
  refuseIf (copiedProfile ≠ 1) (.modelProfileMismatch current.rootRunId)
  let root ← okOrElse (getPipelineRun s handoff.rootRunId) (.runNotFound handoff.rootRunId)
  let failure := derivedHandoffFailure current.childRunId
  let (_, s) ← transitionInTx amb 3 s root.runId .parsed root.stateVersion .failed (some .parse)
    (some failure.code) { failure := some failure }
  let s ← insertOcrLineage s current
  let (changed, s) ← updateOcrHandoffs codec s
    (fun h => h.handoffId = current.handoffId ∧ h.phase = .outputReady)
    (fun h => { h with phase := .childAdmitted })
  refuseIf (changed ≠ 1)
    (.invalidOcrHandoff "the OCR child admission lost phase ownership")
  return (ingested, s)

def admitOcrChild (codec : Codec) (amb : Ambient) (handoff : OcrHandoff)
    (document : IngestedDocument) (run : PipelineRun) (s : Store) :
    Except StoreError (PipelineRun × Store) := do
  let current ← okOrElse (getOcrHandoff s handoff.handoffId)
    (.invalidOcrHandoff "the OCR handoff no longer exists")
  let pdfBytes ← okOrElse current.ocrPdfBytes
    (.invalidOcrHandoff "the OCR PDF recovery bytes are missing")
  if current.phase = .childAdmitted ∨ current.phase = .completed then
    let child ← okOrElse (getPipelineRun s current.childRunId)
      (.invalidOcrHandoff "the admitted OCR child is missing")
    return (child, s)
  else
    admitNewOcrChild codec amb handoff current pdfBytes document run s

def markOcrHandoffCompletedForChild (codec : Codec) (childRunId : String) (s : Store) :
    Except StoreError (Bool × Store) := do
  let run ← okOrElse (getPipelineRun s childRunId) (.runNotFound childRunId)
  if (run.state ≠ .complete ∧ run.state ≠ .completeWithWarnings) ∨
      summaryArtifactExists s childRunId = false then
    return (false, s)
  else
    let (changed, s) ← updateOcrHandoffs codec s
      (fun h => h.childRunId = childRunId ∧ h.phase = .childAdmitted)
      (fun h => { h with phase := .completed })
    return (changed = 1, s)

/-- The checkpoint an interrupted active state goes back to, with the stage it reports. -/
def rewindCheckpoint : PipelineState → Option (PipelineState × PipelineStage)
  | .parsing => some (.ingested, .ingest)
  | .normalizing => some (.parsed, .parse)
  | .structuring => some (.normalized, .normalize)
  | .chunking => some (.structured, .structure)
  | .analyzing => some (.chunked, .chunk)
  | .synthesizing => some (.analyzed, .analyze)
  | .verifying => some (.synthesized, .synthesize)
  | _ => none

def rewindInterruptedOcrChild (amb : Ambient) (childRunId : String) (s : Store) :
    Except StoreError (PipelineRun × Store) := do
  refuseIf (isAdmittedOcrChild s childRunId = false)
    (.invalidOcrHandoff "the interrupted run is not owned by an admitted OCR handoff")
  let run ← okOrElse (getPipelineRun s childRunId) (.runNotFound childRunId)
  refuseIf (run.state = .ingesting)
    (.invalidOcrHandoff "an admitted OCR child cannot be interrupted during ingestion")
  match rewindCheckpoint run.state with
  | none => return (run, s)
  | some (checkpoint, stage) =>
    transitionInTx amb 0 s childRunId run.state run.stateVersion checkpoint (some stage)
      (some "ocr_child_rewound_after_restart") {}

end DocumentSummarizer.Pipeline
