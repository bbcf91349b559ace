import DocumentSummarizer.Pipeline.Structure

/-! # Chunking

Blocks of one top-level structure node are packed into chunks up to a target
size; a chunk never crosses such a node.
-/

namespace DocumentSummarizer.Pipeline

open Library

def chunkingVersion : String := "1.0.0"

def targetChunkCharacters : Nat := 12000

def chunkFailure (code message : String) (recoverable : Bool) : PipelineFailure :=
  ⟨code, message, some .chunk, recoverable⟩

def invalidChunkInput (message : String) : PipelineFailure :=
  chunkFailure "INVALID_CHUNK_INPUT" message false

def invalidChunkStructure (message : String) : PipelineFailure :=
  chunkFailure "INVALID_STRUCTURED_DOCUMENT" message false

def invalidChunked (message : String) : PipelineFailure :=
  chunkFailure "INVALID_CHUNKED_DOCUMENT" message false

structure StructureGroup where
  nodeId : String
  blockIds : List String
  deriving DecidableEq

/-- The blocks stand for the map by identity: the identities are checked to be distinct. -/
structure ChunkInputs where
  blocks : List NormalizedBlock
  groups : List StructureGroup

def ChunkInputs.canonicalBlockIds (inputs : ChunkInputs) : List String :=
  inputs.blocks.map (·.blockId)

def findBlock (blocks : List NormalizedBlock) (blockId : String) : Option NormalizedBlock :=
  blocks.find? (·.blockId == blockId)

/-! ## Validating the inputs -/

/-- The block checks of `validate_inputs`; answers the blocks seen, in order. -/
def collectBlocks (page : NormalizedPage) :
    List NormalizedBlock → List NormalizedBlock → Except PipelineFailure (List NormalizedBlock)
  | seen, [] => return seen
  | seen, block :: rest => do
    refuseIf (isBlank block.blockId = true ∨ isBlank block.text = true ∨
        block.source.pageStart ≠ page.pageNumber ∨ block.source.pageEnd ≠ page.pageNumber ∨
        (findBlock seen block.blockId).isSome = true)
      (invalidChunkInput "Normalized blocks must be unique, non-empty, and page-local")
    collectBlocks page (seen ++ [block]) rest

/-- The page checks of `validate_inputs`, from the given zero-based index. -/
def collectPages : Nat → List NormalizedBlock → List (NormalizedPage × StructurePage) →
    Except PipelineFailure (List NormalizedBlock)
  | _, seen, [] => return seen
  | index, seen, (page, structurePage) :: rest => do
    let expected ← okOrElse (toU32 (index + 1))
      (invalidChunkInput "Normalized page count exceeds the supported range")
    refuseIf (page.pageNumber ≠ expected ∨ structurePage.pageNumber ≠ page.pageNumber ∨
        structurePage.warnings ≠ page.warnings ∨
        structurePage.requiresVisualProcessing ≠ page.requiresVisualProcessing)
      (invalidChunkInput "Structured page metadata does not preserve normalized input")
    let seen ← collectBlocks page seen page.content
    collectPages (index + 1) seen rest

def validateProvenanceSpans (blocks : List NormalizedBlock) :
    List (String × SourceSpan) → Except PipelineFailure Unit
  | [] => return ()
  | (blockId, sourceSpan) :: rest => do
    let block ← okOrElse (findBlock blocks blockId)
      (invalidChunkStructure "Structure node references an unknown normalized block")
    refuseIf (block.source ≠ sourceSpan)
      (invalidChunkStructure "Structure node provenance does not match its normalized block")
    validateProvenanceSpans blocks rest

mutual

def validateNodeProvenance (blocks : List NormalizedBlock) :
    StructureNode → Except PipelineFailure Unit
  | ⟨_, _, _, _, blockIds, sourceSpans, children⟩ => do
    validateProvenanceSpans blocks (blockIds.zip sourceSpans)
    validateAllProvenance blocks children

def validateAllProvenance (blocks : List NormalizedBlock) :
    List StructureNode → Except PipelineFailure Unit
  | [] => return ()
  | node :: rest => do
    validateNodeProvenance blocks node
    validateAllProvenance blocks rest

end

/-- The identities of the blocks of a group and of the nodes seen. -/
structure GroupVisit where
  output : List String
  nodeIds : List String

mutual

def collectGroupBlocks : StructureNode → GroupVisit → Except PipelineFailure GroupVisit
  | ⟨nodeId, _, _, _, blockIds, sourceSpans, children⟩, visit => do
    refuseIf (isBlank nodeId = true ∨ nodeId ∈ visit.nodeIds)
      (invalidChunkStructure "Structure node IDs must be present and unique")
    refuseIf (blockIds.length ≠ sourceSpans.length)
      (invalidChunkStructure "Structure block and source-span counts must agree")
    collectAllBlocks children ⟨visit.output ++ blockIds, nodeId :: visit.nodeIds⟩

def collectAllBlocks : List StructureNode → GroupVisit → Except PipelineFailure GroupVisit
  | [], visit => return visit
  | node :: rest, visit => do
    let visit ← collectGroupBlocks node visit
    collectAllBlocks rest visit

end

/-- The loop of `validate_inputs` over the children of the root. -/
def collectGroups (blocks : List NormalizedBlock) :
    List String → List StructureNode → Except PipelineFailure (List StructureGroup)
  | _, [] => return []
  | nodeIds, child :: rest => do
    let visit ← collectGroupBlocks child ⟨[], nodeIds⟩
    validateNodeProvenance blocks child
    let groups ← collectGroups blocks visit.nodeIds rest
    return ⟨child.nodeId, visit.output⟩ :: groups

def validateInputs (normalized : NormalizedDocument) (structured : StructuredDocument) :
    Except PipelineFailure ChunkInputs := do
  refuseIf (isBlank normalized.documentId = true ∨
      isBlank normalized.normalizationVersion = true ∨
      structured.documentId ≠ normalized.documentId ∨ isBlank structured.structureVersion = true)
    (invalidChunkInput "Normalized and structured document identity/version must agree")
  refuseIf (normalized.pages.length ≠ structured.pages.length)
    (invalidChunkInput "Structured page count does not match normalized input")
  let blocks ← collectPages 0 [] (normalized.pages.zip structured.pages)
  refuseIf (structured.nodes.length ≠ 1)
    (invalidChunkStructure "Structured document must contain exactly one root")
  let root ← okOrElse structured.nodes.head?
    (invalidChunkStructure "Structured document must contain exactly one root")
  refuseIf (root.kind ≠ .document ∨ root.level ≠ 0 ∨ root.title.isSome = true ∨
      root.blockIds ≠ [] ∨ root.sourceSpans ≠ [])
    (invalidChunkStructure "Structured root metadata is invalid")
  let groups ← collectGroups blocks [root.nodeId] root.children
  refuseIf (groups.flatMap (·.blockIds) ≠ blocks.map (·.blockId))
    (invalidChunkStructure
      "Structured block coverage must equal normalized source order exactly once")
  return ⟨blocks, groups⟩

/-! ## Packing -/

section Chunker

variable (platform : TextPlatform)

def deterministicChunkId (documentId chunkingVersion : String) (ordinal : Nat)
    (structureNodeId : String) (blockIds : List String) (text : String) : String :=
  "ch-" ++ platform.sha256Hex (asBytes "document-chunk\x00" ++ asBytes documentId ++
    asBytes "\x00" ++ asBytes chunkingVersion ++ asBytes "\x00" ++ toBeBytes ordinal ++
    asBytes structureNodeId ++ (blockIds.flatMap fun blockId => asBytes "\x00" ++ asBytes blockId) ++
    asBytes "\x00" ++ asBytes text)

/-- `collect::<Vec<_>>().join("\n\n")` -/
def joinBlocks (texts : List String) : String :=
  "\n\n".intercalate texts

def exceedsTargetWarning : PipelineWarning :=
  ⟨"CHUNK_EXCEEDS_TARGET",
    "A single normalized block exceeds the target chunk size and was preserved intact",
    some .chunk⟩

def materializeChunk (normalized : NormalizedDocument) (chunkingVersion structureNodeId : String)
    (blocks : List NormalizedBlock) (zeroBasedOrdinal : Nat) :
    Except PipelineFailure DocumentChunk := do
  let ordinal ← okOrElse (toU32 (zeroBasedOrdinal + 1))
    (chunkFailure "CHUNK_COUNT_EXCEEDED" "Chunk count exceeds the supported range" false)
  let text := joinBlocks (blocks.map (·.text))
  let blockIds := blocks.map (·.blockId)
  return {
    chunkId := deterministicChunkId platform normalized.documentId chunkingVersion ordinal
      structureNodeId blockIds text
    ordinal := ordinal
    structureNodeId := structureNodeId
    text := text
    blockIds := blockIds
    sourceSpans := blocks.map (·.source)
    warnings := if text.length > targetChunkCharacters then [exceedsTargetWarning] else [] }

/-- The loop over the blocks of a group: the chunks so far, and the pending blocks with their
character count. -/
def packBlocks (normalized : NormalizedDocument) (inputs : ChunkInputs) (nodeId : String) :
    List DocumentChunk → List NormalizedBlock → Nat → List String →
      Except PipelineFailure (List DocumentChunk)
  | chunks, pending, _, [] => do
    if pending = [] then
      return chunks
    else
      let chunk ← materializeChunk platform normalized chunkingVersion nodeId pending chunks.length
      return chunks ++ [chunk]
  | chunks, pending, pendingCharacters, blockId :: rest => do
    let block ← okOrElse (findBlock inputs.blocks blockId)
      (invalidChunkStructure s!"Structured block {blockId} does not exist")
    let separator := if pending = [] then 0 else 2
    let blockCharacters := block.text.length
    if pending ≠ [] ∧ pendingCharacters + separator + blockCharacters > targetChunkCharacters then
      let chunk ← materializeChunk platform normalized chunkingVersion nodeId pending chunks.length
      packBlocks normalized inputs nodeId (chunks ++ [chunk]) [block] blockCharacters rest
    else
      packBlocks normalized inputs nodeId chunks (pending ++ [block])
        (pendingCharacters + separator + blockCharacters) rest

def packGroups (normalized : NormalizedDocument) (inputs : ChunkInputs) :
    List DocumentChunk → List StructureGroup → Except PipelineFailure (List DocumentChunk)
  | chunks, [] => return chunks
  | chunks, group :: rest => do
    let chunks ← packBlocks platform normalized inputs group.nodeId chunks [] 0 group.blockIds
    packGroups normalized inputs chunks rest

/-! ## Validating the output -/

/-- The block checks of `validate_chunked_document`; answers the texts of the blocks. -/
def validateChunkBlocks (inputs : ChunkInputs) (allowed : List String) :
    List (String × SourceSpan) → Except PipelineFailure (List String)
  | [] => return []
  | (blockId, sourceSpan) :: rest => do
    refuseIf (blockId ∉ allowed)
      (invalidChunked "Chunk crosses an unsupported structure boundary")
    let block ← okOrElse (findBlock inputs.blocks blockId)
      (invalidChunked "Chunk references an unknown normalized block")
    refuseIf (sourceSpan ≠ block.source)
      (invalidChunked "Chunk source provenance does not match its normalized block")
    let texts ← validateChunkBlocks inputs allowed rest
    return block.text :: texts

/-- `group_blocks.get(..)`: the last group of that node. -/
def groupBlocks (groups : List StructureGroup) (nodeId : String) : Option (List String) :=
  (groups.reverse.find? (·.nodeId == nodeId)).map (·.blockIds)

/-- The loop of `validate_chunked_document`, from the given zero-based index; answers the blocks
covered. -/
def validateChunks (inputs : ChunkInputs) (documentId expectedVersion : String) :
    Nat → List String → List DocumentChunk → Except PipelineFailure (List String)
  | _, _, [] => return []
  | index, seen, chunk :: rest => do
    let expected ← okOrElse (toU32 (index + 1))
      (invalidChunked "Chunk count exceeds the supported range")
    refuseIf (chunk.ordinal ≠ expected ∨ isBlank chunk.chunkId = true ∨ chunk.chunkId ∈ seen ∨
        chunk.text = "" ∨ chunk.blockIds = [] ∨
        chunk.blockIds.length ≠ chunk.sourceSpans.length)
      (invalidChunked
        "Chunks must have deterministic unique identities, canonical order, and source blocks")
    let allowed ← okOrElse (groupBlocks inputs.groups chunk.structureNodeId)
      (invalidChunked "Chunk references an unknown top-level structure node")
    let texts ← validateChunkBlocks inputs allowed (chunk.blockIds.zip chunk.sourceSpans)
    let expectedText := joinBlocks texts
    refuseIf (chunk.text ≠ expectedText ∨
        chunk.chunkId ≠ deterministicChunkId platform documentId expectedVersion chunk.ordinal
          chunk.structureNodeId chunk.blockIds expectedText)
      (invalidChunked
        "Chunk text or identity does not match its authoritative normalized blocks")
    let covered ← validateChunks inputs documentId expectedVersion (index + 1)
      (chunk.chunkId :: seen) rest
    return chunk.blockIds ++ covered

def validateChunkedDocument (chunked : ChunkedDocument) (normalized : NormalizedDocument)
    (structured : StructuredDocument) (expectedVersion : String) :
    Except PipelineFailure Unit := do
  let inputs ← validateInputs normalized structured
  refuseIf (chunked.documentId ≠ normalized.documentId ∨
      chunked.chunkingVersion ≠ expectedVersion ∨ isBlank chunked.chunkingVersion = true)
    (invalidChunked "Chunked document identity/version does not match its input")
  let covered ← validateChunks platform inputs chunked.documentId expectedVersion 0 []
    chunked.chunks
  refuseIf (covered ≠ inputs.canonicalBlockIds)
    (invalidChunked
      "Chunk coverage must equal normalized blocks exactly once in source order")

def noTextWarning : PipelineWarning :=
  ⟨"NO_TEXT_TO_CHUNK", "The document contains no native text blocks to chunk", some .chunk⟩

/-- `DeterministicDocumentChunker::chunk` -/
def chunk (normalized : NormalizedDocument) (structured : StructuredDocument) :
    Except PipelineFailure ChunkedDocument := do
  let inputs ← validateInputs normalized structured
  let warnings := structured.warnings ++ structured.pages.flatMap (·.warnings)
  let warnings :=
    if inputs.canonicalBlockIds = [] then warnings ++ [noTextWarning] else warnings
  let chunks ← packGroups platform normalized inputs [] inputs.groups
  let chunked : ChunkedDocument :=
    ⟨normalized.documentId, chunkingVersion, chunks, warnings⟩
  validateChunkedDocument platform chunked normalized structured chunkingVersion
  return chunked

end Chunker

end DocumentSummarizer.Pipeline
