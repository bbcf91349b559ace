import DocumentSummarizer.Pipeline.Chunk
import DocumentSummarizer.Pipeline.PageSelection
import DocumentSummarizer.Pipeline.SummaryContracts
import DocumentSummarizer.Pipeline.WholeClauses

/-! # Contract extraction

Contract mode copies source-bound clause records without prose generation: the
clauses of the document, their evidence, and the sections that match a key term.
-/

namespace DocumentSummarizer.Pipeline

open Library

/-! ## The boundary of the chunk stage -/

def invalidChunkBoundary (message : String) : PipelineFailure :=
  stageFailure .analyze "INVALID_NORMALIZED_CHUNK_BOUNDARY" message false

/-- The blocks of a page, after the identities in `seen`. -/
def boundaryBlocks (pageNumber : Nat) :
    List String → List NormalizedBlock → Except PipelineFailure (List String)
  | seen, [] => .ok seen
  | seen, block :: rest => do
    refuseIf (isBlank block.blockId = true ∨ isBlank block.text = true ∨
        block.source.pageStart ≠ pageNumber ∨ block.source.pageEnd ≠ pageNumber ∨
        block.blockId ∈ seen)
      (invalidChunkBoundary "Normalized blocks must be unique, non-empty, and page-local")
    boundaryBlocks pageNumber (block.blockId :: seen) rest

def boundaryPages : List String → List (NormalizedPage × Nat) →
    Except PipelineFailure (List String)
  | seen, [] => .ok seen
  | seen, (page, index) :: rest => do
    let expectedPage ← okOrElse (toU32 (index + 1))
      (invalidChunkBoundary "Normalized page count exceeds the supported range")
    refuseIf (page.pageNumber ≠ expectedPage)
      (invalidChunkBoundary "Normalized pages must remain in canonical order")
    let seen ← boundaryBlocks page.pageNumber seen page.content
    boundaryPages seen rest

/-- A chunk's blocks, each with the provenance that the chunk gives it. -/
def boundaryChunk (normalized : NormalizedDocument) (chunk : DocumentChunk) :
    Except PipelineFailure (List String) := do
  let blocks ← (chunk.blockIds.zip chunk.sourceSpans).mapM fun (blockId, sourceSpan) => do
    let block ← okOrElse (normalized.findBlock blockId)
      (invalidChunkBoundary "A chunk references an unknown normalized block")
    refuseIf (block.source ≠ sourceSpan)
      (invalidChunkBoundary "Chunk provenance must equal authoritative normalized provenance")
    return (blockId, block.text)
  refuseIf (joinBlocks (blocks.map (·.2)) ≠ chunk.text)
    (invalidChunkBoundary "Chunk text must equal its normalized source blocks")
  return blocks.map (·.1)

/-- `validate_normalized_chunk_boundary`; the map that it returns is `findBlock`. -/
def validateNormalizedChunkBoundary (normalized : NormalizedDocument) (chunked : ChunkedDocument) :
    Except PipelineFailure Unit := do
  refuseIf (normalized.documentId ≠ chunked.documentId ∨
      isBlank normalized.normalizationVersion = true)
    (invalidChunkBoundary "Normalized and chunked document identity/version must agree")
  let _ ← boundaryPages [] normalized.pages.zipIdx
  let chunkOrder ← chunked.chunks.mapM (boundaryChunk normalized)
  refuseIf (chunkOrder.flatten ≠ normalized.blocks.map (·.blockId))
    (invalidChunkBoundary "Chunk block coverage must equal normalized source order exactly once")

/-! ## Identities -/

/-- `deterministic_id` -/
def deterministicId (platform : TextPlatform) (kind : String) (parts : List String) : String :=
  kind ++ "-" ++ platform.sha256Hex
    (asBytes kind ++ parts.flatMap fun part => asBytes "\x00" ++ asBytes part)

/-! ## Versions -/

def contractExtractionVersion : String := "contract-extraction-3.3.0"
def preHeadingVersion : String := "contract-extraction-3.2.0"
def previousContractVersion : String := "contract-extraction-3.1.2"
def contractSourceVersion : String := "contract-extraction-3.0.2"

def invalidContractExtraction : PipelineFailure :=
  stageFailure .verify "INVALID_CONTRACT_EXTRACTION"
    "Contract records must exactly match complete source clauses and provenance" false

def contractFurniturePolicy (version : String) : Except PipelineFailure FurniturePolicy :=
  if version = contractExtractionVersion ∨ version = preHeadingVersion then
    .ok .runningMetadata
  else if version = previousContractVersion then
    .ok .original
  else
    .error invalidContractExtraction

def contractGrammar (version : String) : HeadingGrammar :=
  if version = contractExtractionVersion then .sectionAndSplitArticle else .original

/-! ## Headings -/

namespace ContractTermCategory

/-- `ALL` -/
def all : List ContractTermCategory :=
  [parties, payment, termRenewal, termination, insurance, liabilityIndemnity]

def label : ContractTermCategory → String
  | parties => "parties"
  | payment => "payment"
  | termRenewal => "term/renewal"
  | termination => "termination"
  | insurance => "insurance"
  | liabilityIndemnity => "liability/indemnity"

def headings : ContractTermCategory → List String
  | parties => ["parties", "parties to the agreement", "contracting parties"]
  | payment => ["payment", "payments", "payment terms", "fees", "compensation",
      "fees and payment", "contract price", "pricing"]
  | termRenewal => ["term", "duration", "renewal", "term and renewal", "term/renewal",
      "commencement and duration", "initial term", "renewal term", "term and termination"]
  | termination => ["termination", "termination of agreement", "termination of the agreement",
      "cancellation", "term and termination"]
  | insurance => ["insurance", "insurance requirements", "property insurance"]
  | liabilityIndemnity => ["liability", "limitation of liability", "indemnity",
      "indemnification", "liability and indemnity", "liability and indemnification",
      "hold harmless", "limitations of liability"]

end ContractTermCategory

/-- `str::split` by a text; `fuel` bounds the pieces. -/
def splitText (pattern : List Char) : Nat → List Char → List (List Char)
  | 0, text => [text]
  | fuel + 1, text =>
    match splitOnceText pattern text with
    | none => [text]
    | some (front, back) => front :: splitText pattern fuel back

def headingMatches (category : ContractTermCategory) (heading : List Char) : Bool :=
  let spelled := (heading.map Char.toLower).flatMap fun c =>
    if c = '&' then " and ".toList else [c]
  let normalized := joined [' '] (splitWhitespace spelled)
  let headings := category.headings.map String.toList
  let conjuncts := ((((splitWhere (fun c => c == ',' || c == ';') normalized).flatMap fun part =>
    splitText " and ".toList part.length part).flatMap fun part =>
      splitText " or ".toList part.length part).map trim)
  decide (normalized ∈ headings) ||
    match conjuncts.getLast? with
    | none => false
    | some last =>
      -- earlier words can share the final head: "Payment and Performance Bonds"
      decide (last ∈ headings) || ((splitWhitespace last).length == 1 &&
        conjuncts.dropLast.any (· ∈ headings))

/-! ## Key terms -/

/-- The loop of one category: the clauses it selected, its selections and its doubt. -/
structure Selecting where
  selected : List Nat
  selections : List ContractSectionSelection
  uncertain : Bool
  deriving DecidableEq, Repr

/-- `SourceClause::text` -/
def clauseText (document : NormalizedDocument) (clause : SourceClause) : Option (List Char) :=
  (clause.fragments.mapM document.slice).map (joined "\n\n".toList)

section Selection

variable (unicode : Unicode) (document : NormalizedDocument) (sources : List SourceClause)
  (clauses : List ExtractedContractClause) (category : ContractTermCategory)

def matchesCategory (source : SourceClause) : Bool :=
  source.headings.any (headingMatches category)

/-- What the clause at `index` adds. -/
def selectSection (state : Selecting) (source : SourceClause) (index : Nat) : Option Selecting :=
  if index ∈ state.selected ∨ matchesCategory category source = false then
    some state
  else do
    let members ← sectionMembers sources index
    let doubts ← members.mapM fun member => sources[member]?.map (·.boundaryUncertain)
    if doubts.any id then
      some { state with uncertain := true }
    else if members.length = 1 ∧ source.headingOnly = true then
      some state
    else do
      let root ← clauses[index]?
      let ids ← members.mapM fun member => clauses[member]?.map (·.clauseId)
      some {
        selected := state.selected ++ members
        selections := state.selections ++ [⟨.heading, root.clauseId, ids⟩]
        uncertain := state.uncertain }

def selectSections : Selecting → List (SourceClause × Nat) → Option Selecting
  | state, [] => some state
  | state, (source, index) :: rest =>
    (selectSection sources clauses category state source index).bind fun state =>
      selectSections state rest

def opensNumbering (clause : SourceClause) : Bool :=
  decide (clause.article = some 1) || decide (clause.number = some [['1']])

def mentionsBetween (text : List Char) : Bool :=
  (splitWhere (fun c => !unicode.isAlphanumeric c && c != '_') text).any fun word =>
    word.map Char.toLower == "between".toList

/-- The opening that names the parties, and whether it is uncertain. -/
def openingBetween : Option (Option ContractSectionSelection × Bool) :=
  match sources.findIdx? (!·.opening) with
  | none => some (none, false)
  | some first =>
    if (sources[first]?.any opensNumbering) = false then
      some (none, false)
    else if (sources.take first).any (·.boundaryUncertain) then
      some (none, true)
    else do
      let texts ← (sources.take first).mapM (clauseText document)
      if texts.any (mentionsBetween unicode) then
        match (clauses.take first).map (·.clauseId) with
        | [] => some (none, false)
        | root :: ids => some (some ⟨.openingBetween, root, root :: ids⟩, false)
      else
        some (none, false)

def keyTerm : Option ContractKeyTerm := do
  let state ← selectSections sources clauses category ⟨[], [], false⟩ sources.zipIdx
  let state ←
    if category = .parties ∧ state.selections = [] then do
      let (selection, doubtful) ← openingBetween unicode document sources clauses
      some { state with
        selections := selection.toList
        uncertain := state.uncertain || doubtful }
    else
      some state
  return ⟨category, if state.uncertain then [] else state.selections⟩

def selectKeyTerms : Option (List ContractKeyTerm) :=
  ContractTermCategory.all.mapM (keyTerm unicode document sources clauses)

end Selection

/-! ## Records -/

section Records

variable (platform : TextPlatform) (unicode : Unicode) (chunked : ChunkedDocument)
  (normalized : NormalizedDocument)

def sourceEvidenceId (chunkId : String) (fragment : SourceFragment) (quote : String) : String :=
  deterministicId platform "contract-source"
    [contractSourceVersion, normalized.documentId, chunkId, fragment.blockId,
      toString fragment.start, toString fragment.finish, quote]

/-- The evidence of one fragment. -/
def fragmentEvidence (fragment : SourceFragment) : Interruptible EvidenceItem := do
  let block ← okOrElse (normalized.findBlock fragment.blockId) .panicked
  let chunk ← okOrElse (chunked.chunks.find? (fragment.blockId ∈ ·.blockIds))
    (.failure invalidContractExtraction)
  let quote ← okOrElse (byteSlice block.text.toList fragment.start fragment.finish) .panicked
  return {
    evidenceId := sourceEvidenceId platform normalized chunk.chunkId fragment (String.ofList quote)
    chunkId := chunk.chunkId
    blockId := fragment.blockId
    claimText := String.ofList quote
    exactQuote := String.ofList quote
    sourceSpan := block.source }

def clauseIdentity (ordinal : Nat) (text : String) : String :=
  deterministicId platform "contract-clause"
    [contractSourceVersion, normalized.documentId, toString ordinal, text]

/-- The record of one clause and its evidence. -/
def clauseRecord (clause : SourceClause) (ordinal : Nat) :
    Interruptible (ExtractedContractClause × List EvidenceItem) := do
  let evidence ← clause.fragments.mapM (fragmentEvidence platform chunked normalized)
  let text ← okOrElse (clauseText normalized clause) .panicked
  return ({
    clauseId := clauseIdentity platform normalized ordinal (String.ofList text)
    heading := clause.headings.head?.map String.ofList
    text := String.ofList text
    evidenceIds := evidence.map (·.evidenceId) }, evidence)

def records (version : String) : Interruptible (ContractExtraction × List EvidenceItem) := do
  propagate (validateNormalizedChunkBoundary normalized chunked)
  let policy ← propagate (contractFurniturePolicy version)
  let sources ← okOrElse (contractSources unicode normalized policy (contractGrammar version))
    .panicked
  let built ← sources.zipIdx.mapM fun (clause, ordinal) =>
    clauseRecord platform chunked normalized clause ordinal
  propagate (refuseIf (built = []) invalidContractExtraction)
  let keyTerms ← okOrElse
    (selectKeyTerms unicode normalized sources (built.map (·.1))) .panicked
  return (⟨built.map (·.1), keyTerms⟩, built.flatMap (·.2))

/-- The evidence as `analyze` regroups it by chunk. -/
def evidenceByChunk (evidence : List EvidenceItem) : List EvidenceItem :=
  chunked.chunks.flatMap fun chunk => evidence.filter (·.chunkId = chunk.chunkId)

end Records

/-- The claims of `synthesize`. -/
def contractClaims (extraction : ContractExtraction) : List CitedClaim :=
  extraction.clauses.map fun clause => ⟨clause.clauseId, clause.text, clause.evidenceIds⟩

end DocumentSummarizer.Pipeline
