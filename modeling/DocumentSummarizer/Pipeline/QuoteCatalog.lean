import DocumentSummarizer.Library.RoundRobin
import DocumentSummarizer.Pipeline.ContractExtraction
import DocumentSummarizer.Pipeline.QuoteSegments

/-! # The quotation catalog

A scope of blocks is offered to the model as quotations to select from.  The
catalog takes one segment of every block in a round; the model answers with the
identity of one of its candidates and a claim, which become evidence.
-/

namespace DocumentSummarizer.Pipeline

open Library

def maxChunkInputCharacters : Nat := 100000

def maxAnalysisSelectionIdCharacters : Nat := 8

def maxDirectAnalysisClaimCharacters : Nat := 1536

structure AnalysisQuoteCandidate where
  selectionId : String
  fullIdentity : String
  blockId : String
  pageNumber : Nat
  exactQuote : String
  deriving DecidableEq, Repr

structure AnalysisQuoteCatalog where
  candidates : List AnalysisQuoteCandidate
  omittedSourceUnits : Nat
  deriving DecidableEq, Repr

structure AnalysisScope where
  pageNumbers : List Nat
  blockIds : List String
  minimumEvidence : Nat
  maximumEvidence : Nat
  quoteCandidates : List AnalysisQuoteCandidate
  deriving DecidableEq, Repr

structure RawEvidenceItem where
  quoteId : String
  claimText : String
  deriving DecidableEq, Repr

structure RawEvidenceResponse where
  evidence : List RawEvidenceItem
  deriving DecidableEq, Repr

def invalidEvidenceResponse (message : String) (recoverable : Bool) : PipelineFailure :=
  stageFailure .analyze "MODEL_EVIDENCE_RESPONSE_INVALID" message recoverable

def canonicalBoundedText (value : String) (maximumCharacters : Nat) : Bool :=
  decide (value ≠ "") && decide (trim value.toList = value.toList) &&
    decide (value.toList.length ≤ maximumCharacters)

/-! ## The chunks that the analysis takes -/

namespace Analysis

def invalidChunkedDocument (message : String) : PipelineFailure :=
  stageFailure .analyze "INVALID_CHUNKED_DOCUMENT" message false

def validSourceSpan (span : SourceSpan) : Bool :=
  decide (0 < span.pageStart) && decide (span.pageStart ≤ span.pageEnd)

def validateSpans : List String → List (String × SourceSpan) →
    Except PipelineFailure (List String)
  | seen, [] => .ok seen
  | seen, (blockId, span) :: rest => do
    refuseIf (isBlank blockId = true ∨ blockId ∈ seen ∨ validSourceSpan span = false)
      (invalidChunkedDocument "Chunk block coverage and source spans must be unique and valid")
    validateSpans (blockId :: seen) rest

def validateChunks : List String → List String → List (DocumentChunk × Nat) →
    Except PipelineFailure Unit
  | _, _, [] => .ok ()
  | chunkIds, blockIds, (chunk, index) :: rest => do
    let expectedOrdinal ← okOrElse (toU32 (index + 1))
      (invalidChunkedDocument "Chunk count exceeds the supported range")
    refuseIf (chunk.ordinal ≠ expectedOrdinal ∨ isBlank chunk.chunkId = true ∨
        isBlank chunk.structureNodeId = true ∨ isBlank chunk.text = true ∨ chunk.blockIds = [] ∨
        chunk.blockIds.length ≠ chunk.sourceSpans.length ∨ chunk.chunkId ∈ chunkIds)
      (invalidChunkedDocument "Chunks must be ordered, unique, non-empty, and provenance-complete")
    let blockIds ← validateSpans blockIds (chunk.blockIds.zip chunk.sourceSpans)
    validateChunks (chunk.chunkId :: chunkIds) blockIds rest

/-- The `validate_chunked_document` of the analysis. -/
def validateChunkedDocument (chunked : ChunkedDocument) : Except PipelineFailure Unit := do
  refuseIf (isBlank chunked.documentId = true ∨ isBlank chunked.chunkingVersion = true)
    (invalidChunkedDocument "Chunked document identity and version must be present")
  refuseIf (chunked.chunks = [])
    (stageFailure .analyze "NO_NATIVE_TEXT_FOR_SUMMARY"
      "The document contains no native text chunks to summarize" false)
  validateChunks [] [] chunked.chunks.zipIdx

end Analysis

/-! ## Candidates -/

def analysisSelectionId (index : Nat) : Option String :=
  (checkedAdd index 1).bind fun ordinal =>
    let selectionId := "q" ++ toString ordinal
    if selectionId.utf8ByteSize ≤ maxAnalysisSelectionIdCharacters then some selectionId else none

/-- The segments of an allowed block and its page. -/
structure BlockSegments where
  blockId : String
  pageNumber : Nat
  segments : List String
  deriving DecidableEq, Repr

/-- The candidates so far, and the quotations they are made of. -/
structure CatalogPass where
  candidates : List AnalysisQuoteCandidate
  seen : List (String × String)
  deriving DecidableEq, Repr

section Catalog

variable (platform : TextPlatform) (version : String) (chunk : DocumentChunk)

def quoteIdentity (blockId : String) (pageNumber : Nat) (exactQuote : String) : String :=
  deterministicId platform "quote"
    [version, chunk.chunkId, blockId, toString pageNumber, exactQuote]

/-- The segment that a block gives in one round. -/
def offerSegment (segmentIndex : Nat) (pass : CatalogPass) (block : BlockSegments) :
    Except PipelineFailure CatalogPass :=
  match block.segments[segmentIndex]? with
  | none => .ok pass
  | some exactQuote =>
    if (block.blockId, exactQuote) ∈ pass.seen then
      .ok pass
    else do
      let selectionId ← okOrElse (analysisSelectionId pass.candidates.length)
        (invalidEvidenceResponse
          "The quotation catalog exceeded the scope-local identifier range" false)
      return {
        candidates := pass.candidates ++ [{
          selectionId := selectionId
          fullIdentity := quoteIdentity platform version chunk block.blockId block.pageNumber
            exactQuote
          blockId := block.blockId
          pageNumber := block.pageNumber
          exactQuote := exactQuote }]
        seen := (block.blockId, exactQuote) :: pass.seen }

variable (normalized : NormalizedDocument)

/-- The allowed blocks in their order, and the units that their segmentations omit. -/
def segmentBlocks (segment : NormalizedBlock → Option QuoteSegmentation) :
    Nat → List String → Interruptible (List BlockSegments × Nat)
  | omitted, [] => .ok ([], omitted)
  | omitted, blockId :: rest => do
    let block ← okOrElse (normalized.findBlock blockId) (.failure (invalidChunkBoundary
      "Quote-candidate construction encountered an unknown normalized block"))
    let segmentation ← okOrElse (segment block) .panicked
    let omitted ← okOrElse (checkedAdd omitted segmentation.omittedSourceUnits)
      (.failure (invalidEvidenceResponse
        "The quotation catalog omitted-unit count exceeded the supported range" false))
    let (later, omitted) ← segmentBlocks segment omitted rest
    return (⟨blockId, block.source.pageStart, segmentation.segments.map String.ofList⟩ :: later,
      omitted)

def deriveQuoteCatalogWithSegmentation (allowedBlockIds : List String)
    (segment : NormalizedBlock → Option QuoteSegmentation) :
    Interruptible AnalysisQuoteCatalog := do
  let (blocks, omitted) ← segmentBlocks normalized segment 0 allowedBlockIds
  let maximumSegments := (blocks.map (·.segments.length)).foldr max 0
  let pass ← propagate ((List.range maximumSegments).foldlM (fun pass segmentIndex =>
    blocks.foldlM (offerSegment platform version chunk segmentIndex) pass) ⟨[], []⟩)
  propagate (refuseIf (pass.candidates = [] ∧
      ¬ ((version = analysisVersion ∨ version = sentenceAnalysisVersion) ∧ 0 < omitted))
    (invalidEvidenceResponse
      "Analysis could not derive any bounded quotation from the source chunk" false))
  return ⟨pass.candidates, omitted⟩

variable (tables : SentenceTables)

def deriveAnalysisQuoteCatalogForBlocks (allowedBlockIds : List String) :
    Interruptible AnalysisQuoteCatalog :=
  deriveQuoteCatalogWithSegmentation platform version chunk normalized allowedBlockIds fun block =>
    quoteSegmentationForVersion tables version block.text.toList

/-- The identities and quotations of the candidates that were checked. -/
structure CheckedCandidates where
  selectionIds : List String
  fullIdentities : List String
  signatures : List (String × String)

def validateCandidates (allowedBlockIds : List String) : CheckedCandidates →
    List (AnalysisQuoteCandidate × Nat) → Except PipelineFailure Unit
  | _, [] => .ok ()
  | checked, (candidate, index) :: rest => do
    let block ← okOrElse (normalized.findBlock candidate.blockId) (invalidEvidenceResponse
      "The quotation catalog references an unknown normalized block" false)
    let expectedSelectionId ← okOrElse (analysisSelectionId index) (invalidEvidenceResponse
      "The quotation catalog exceeded the scope-local identifier range" false)
    refuseIf (candidate.selectionId ≠ expectedSelectionId ∨
        candidate.fullIdentity ≠ quoteIdentity platform version chunk candidate.blockId
          candidate.pageNumber candidate.exactQuote ∨
        candidate.selectionId ∈ checked.selectionIds ∨
        candidate.fullIdentity ∈ checked.fullIdentities ∨
        (candidate.blockId, candidate.exactQuote) ∈ checked.signatures ∨
        candidate.blockId ∉ allowedBlockIds ∨
        candidate.pageNumber ≠ block.source.pageStart ∨
        canonicalBoundedText candidate.exactQuote maxAnalysisQuoteCharacters = false ∨
        containsText candidate.exactQuote.toList block.text.toList = false)
      (invalidEvidenceResponse
        "Quotation identities, source provenance, and exact bytes must validate" false)
    validateCandidates allowedBlockIds {
      selectionIds := candidate.selectionId :: checked.selectionIds
      fullIdentities := candidate.fullIdentity :: checked.fullIdentities
      signatures := (candidate.blockId, candidate.exactQuote) :: checked.signatures } rest

def validateVersionedAnalysisQuoteCatalogForBlocks (allowedBlockIds : List String)
    (quoteCandidates : List AnalysisQuoteCandidate) : Interruptible Unit := do
  let expectedCatalog ← deriveAnalysisQuoteCatalogForBlocks platform version chunk normalized tables
    allowedBlockIds
  propagate (refuseIf (expectedCatalog.candidates ≠ quoteCandidates) (invalidEvidenceResponse
    "The quotation catalog must equal the versioned source reconstruction" false))
  propagate (validateCandidates platform version chunk normalized allowedBlockIds ⟨[], [], []⟩
    quoteCandidates.zipIdx)

def buildVersionedAnalysisQuoteCatalogForBlocks (allowedBlockIds : List String) :
    Interruptible AnalysisQuoteCatalog := do
  let catalog ← deriveAnalysisQuoteCatalogForBlocks platform version chunk normalized tables
    allowedBlockIds
  validateVersionedAnalysisQuoteCatalogForBlocks platform version chunk normalized tables
    allowedBlockIds catalog.candidates
  return catalog

/-! ## Responses -/

/-- What was made of the items of a response so far. -/
structure EvidencePass where
  selectedQuotes : List String
  selectedPages : Finset Nat
  evidenceIds : List String
  evidence : List EvidenceItem

variable (documentId : String)

def deterministicEvidenceId (index : Nat) (blockId claimText exactQuote : String) : String :=
  deterministicId platform "evidence"
    [documentId, version, chunk.chunkId, toString index, blockId, claimText, exactQuote]

/-- The candidates as a map by selection; the last of an identity is the one found. -/
def findCandidate (candidates : List AnalysisQuoteCandidate) (quoteId : String) :
    Option AnalysisQuoteCandidate :=
  candidates.reverse.find? (·.selectionId = quoteId)

def materializeItem (candidates : List AnalysisQuoteCandidate) (evidenceIndexOffset : Nat)
    (pass : EvidencePass) (item : RawEvidenceItem × Nat) : Interruptible EvidencePass := do
  propagate (refuseIf
    (canonicalBoundedText item.1.claimText maxDirectAnalysisClaimCharacters = false ∨
      item.1.quoteId ∈ pass.selectedQuotes)
    (invalidEvidenceResponse "Evidence items must contain unique quote IDs and bounded claims" true))
  let candidate ← okOrElse (findCandidate candidates item.1.quoteId)
    (.failure (invalidEvidenceResponse
      "Evidence may select only application-provided quote IDs" true))
  let block ← okOrElse (normalized.findBlock candidate.blockId) .panicked
  let evidenceIndex ← okOrElse (checkedAdd evidenceIndexOffset item.2)
    (.failure (invalidEvidenceResponse
      "The evidence identity index exceeds the supported range" false))
  let evidenceId := deterministicEvidenceId platform version chunk documentId evidenceIndex
    candidate.blockId item.1.claimText candidate.exactQuote
  propagate (refuseIf (evidenceId ∈ pass.evidenceIds)
    (invalidEvidenceResponse "Evidence identities must be unique" false))
  return {
    selectedQuotes := item.1.quoteId :: pass.selectedQuotes
    selectedPages := insert candidate.pageNumber pass.selectedPages
    evidenceIds := evidenceId :: pass.evidenceIds
    evidence := pass.evidence ++ [{
      evidenceId := evidenceId
      chunkId := chunk.chunkId
      blockId := candidate.blockId
      claimText := item.1.claimText
      exactQuote := candidate.exactQuote
      sourceSpan := block.source }] }

/-- `parse_evidence_response` on what the response decodes to. -/
def parseEvidenceResponse (raw : Option RawEvidenceResponse) (scope : AnalysisScope)
    (evidenceIndexOffset : Nat) : Interruptible (List EvidenceItem) := do
  let raw ← okOrElse raw (.failure (invalidEvidenceResponse
    "The model evidence response was not valid contract JSON" true))
  propagate (refuseIf (scope.minimumEvidence ≠ 1 ∨ scope.maximumEvidence ≠ 1 ∨
      scope.pageNumbers.length ≠ 1 ∨
      (∃ candidate ∈ scope.quoteCandidates, candidate.pageNumber ∉ scope.pageNumbers) ∨
      scope.quoteCandidates.length < scope.maximumEvidence ∨
      raw.evidence.length < scope.minimumEvidence ∨
      scope.maximumEvidence < raw.evidence.length)
    (invalidEvidenceResponse
      "Each native-text page request must return exactly one evidence item from that page" true))
  validateVersionedAnalysisQuoteCatalogForBlocks platform version chunk normalized tables
    scope.blockIds scope.quoteCandidates
  let pass ← raw.evidence.zipIdx.foldlM
    (materializeItem platform version chunk normalized documentId scope.quoteCandidates
      evidenceIndexOffset) ⟨[], ∅, [], []⟩
  propagate (refuseIf (pass.selectedPages.card < scope.minimumEvidence)
    (invalidEvidenceResponse
      "Each page scope must select evidence from the required number of distinct pages" true))
  return pass.evidence

end Catalog

end DocumentSummarizer.Pipeline
