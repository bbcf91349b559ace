import DocumentSummarizer.Pipeline.Text

/-! # Structural interpretation

Numbered headings open sections; every other block continues the one before.
The outline is built in an arena and then materialized as a tree.
-/

namespace DocumentSummarizer.Pipeline

open Library

def structureVersion : String := "1.0.0"

def maxHeadingDepth : Nat := 6

def maxHeadingLineChars : Nat := 120

def maxHeadingTitleWords : Nat := 12

def maxHeadingComponent : Nat := 999

def structureFailure (code message : String) (recoverable : Bool) : PipelineFailure :=
  ⟨code, message, some .structure, recoverable⟩

def invalidNormalizedInput (message : String) : PipelineFailure :=
  structureFailure "INVALID_NORMALIZED_DOCUMENT" message false

def invalidStructured (message : String) : PipelineFailure :=
  structureFailure "INVALID_STRUCTURED_DOCUMENT" message false

/-! ## Numbered headings -/

structure HeadingSignal where
  numbering : List Nat
  title : Option String
  deriving DecidableEq, Repr

section Headings

variable (platform : TextPlatform)

/-- `line[..].parse::<u32>().ok()`, for a run of digits. -/
def parseComponent (digits : List Char) : Option Nat :=
  toU32 (digits.foldl (fun value c => value * 10 + (c.toNat - '0'.toNat)) 0)

def isConservativeHeadingTitle (title : List Char) : Bool :=
  match title.head?, title.getLast? with
  | some first, some last =>
    platform.isUppercase first && decide (wordCount false title ≤ maxHeadingTitleWords) &&
      !(last == '.' || last == '!' || last == '?' || last == ';')
  | _, _ => false

/-- The signal of a heading whose title starts at the given text. -/
def headingSignal (numbering : List Nat) (rest : List Char) : Option HeadingSignal :=
  let title := trim rest
  if title.isEmpty then some ⟨numbering, none⟩
  else if isConservativeHeadingTitle platform title then
    some ⟨numbering, some (String.ofList title)⟩
  else none

/-- The loop of `detect_numbered_heading`; the first argument is how many components may
still follow. -/
def scanNumbering : Nat → List Nat → List Char → Option HeadingSignal
  | 0, _, _ => none
  | remaining + 1, numbering, text => do
    let digits := text.takeWhile Char.isDigit
    if digits.isEmpty then none
    let component ← parseComponent digits
    if component = 0 ∨ component > maxHeadingComponent then none
    let numbering := numbering ++ [component]
    match text.dropWhile Char.isDigit with
    | [] => headingSignal platform numbering []
    | '.' :: c :: rest =>
      if c.isDigit then scanNumbering remaining numbering (c :: rest)
      else headingSignal platform numbering ((c :: rest).dropWhile isAsciiWhitespace)
    | '.' :: rest => headingSignal platform numbering (rest.dropWhile isAsciiWhitespace)
    | ')' :: rest =>
      if numbering.length = 1 then
        headingSignal platform numbering (rest.dropWhile isAsciiWhitespace)
      else none
    | c :: rest =>
      if isAsciiWhitespace c then
        headingSignal platform numbering ((c :: rest).dropWhile isAsciiWhitespace)
      else none

def detectNumberedHeading (text : String) : Option HeadingSignal := do
  let line ← (lines text.toList).find? fun line => !(trim line).isEmpty
  let line := trim line
  if line.length > maxHeadingLineChars then none
  scanNumbering platform maxHeadingDepth [] line

end Headings

/-! ## The outline -/

structure ActiveHeading where
  numbering : List Nat
  nodeId : Nat

structure DraftNode where
  kind : StructureNodeKind
  title : Option String
  level : Nat
  blockIds : List String
  sourceSpans : List SourceSpan
  children : List Nat

namespace DraftNode

def document : DraftNode :=
  ⟨.document, none, 0, [], [], []⟩

def withBlock (kind : StructureNodeKind) (title : Option String) (level : Nat)
    (block : NormalizedBlock) : DraftNode :=
  ⟨kind, title, level, [block.blockId], [block.source], []⟩

def pushBlock (draft : DraftNode) (block : NormalizedBlock) : DraftNode :=
  { draft with
    blockIds := draft.blockIds ++ [block.blockId]
    sourceSpans := draft.sourceSpans ++ [block.source] }

def pushChild (draft : DraftNode) (nodeId : Nat) : DraftNode :=
  { draft with children := draft.children ++ [nodeId] }

end DraftNode

/-- The loop variables of `interpret`. -/
structure Outline where
  arena : List DraftNode
  headingStack : List ActiveHeading
  seenNumbering : List (List Nat)

def Outline.empty : Outline :=
  ⟨[DraftNode.document], [], []⟩

/-- `iter().rposition` -/
def rposition {α : Type} (p : α → Bool) : List α → Option Nat
  | [] => none
  | a :: rest =>
    match rposition p rest with
    | some i => some (i + 1)
    | none => if p a then some 0 else none

/-- The parent of a heading and the depth of the stack that stays open. -/
def headingParent (numbering : List Nat) (active : List ActiveHeading)
    (seen : List (List Nat)) : Option (Nat × Nat) :=
  if numbering = [] ∨ numbering.length > maxHeadingDepth ∨ numbering ∈ seen then none
  else if numbering.length = 1 then some (0, 0)
  else do
    let position ← rposition (fun heading => heading.numbering == numbering.dropLast) active
    let parent ← active[position]?
    return (parent.nodeId, position + 1)

def appendContentBlock (arena : List DraftNode) (headingStack : List ActiveHeading)
    (block : NormalizedBlock) : List DraftNode :=
  match headingStack.getLast? with
  | some active => arena.modify active.nodeId (·.pushBlock block)
  | none =>
    let lastChild := (arena[0]?.bind (·.children.getLast?)).filter fun nodeId =>
      (arena[nodeId]?.map (·.kind)) == some .unstructured
    match lastChild with
    | some nodeId => arena.modify nodeId (·.pushBlock block)
    | none =>
      (arena ++ [DraftNode.withBlock .unstructured none 1 block]).modify 0 (·.pushChild arena.length)

section Interpreter

variable (platform : TextPlatform)

/-- The body of the loop of `interpret`. -/
def placeBlock (outline : Outline) (block : NormalizedBlock) :
    Except PipelineFailure Outline := do
  let signal := detectNumberedHeading platform block.text
  let placement := signal.bind fun heading =>
    headingParent heading.numbering outline.headingStack outline.seenNumbering
  match signal, placement with
  | some heading, some (parentId, retainedDepth) =>
    let level ← okOrElse (toU32 heading.numbering.length)
      (invalidNormalizedInput "Heading depth exceeds the supported structural range")
    let kind : StructureNodeKind := if level = 1 then .section else .subsection
    let nodeId := outline.arena.length
    return {
      arena := (outline.arena ++ [DraftNode.withBlock kind heading.title level block]).modify parentId
        (·.pushChild nodeId)
      headingStack := outline.headingStack.take retainedDepth ++ [⟨heading.numbering, nodeId⟩]
      seenNumbering := heading.numbering :: outline.seenNumbering }
  | _, _ =>
    return { outline with
      arena := appendContentBlock outline.arena outline.headingStack block }

def placeBlocks : Outline → List NormalizedBlock → Except PipelineFailure Outline
  | outline, [] => return outline
  | outline, block :: rest => do
    let outline ← placeBlock platform outline block
    placeBlocks outline rest

def placePages : Outline → List NormalizedPage → Except PipelineFailure Outline
  | outline, [] => return outline
  | outline, page :: rest => do
    let outline ← placeBlocks platform outline page.content
    placePages outline rest

/-! ## The tree -/

def nodeKindTag : StructureNodeKind → List UInt8
  | .document => asBytes "document"
  | .section => asBytes "section"
  | .subsection => asBytes "subsection"
  | .unstructured => asBytes "unstructured"

def deterministicNodeId (documentId structureVersion : String) (path : List Nat)
    (kind : StructureNodeKind) (title : Option String) (level : Nat) (blockIds : List String) :
    String :=
  "sn-" ++ platform.sha256Hex (asBytes "structure-node\x00" ++ asBytes documentId ++
    asBytes "\x00" ++ asBytes structureVersion ++ asBytes "\x00" ++ nodeKindTag kind ++
    toBeBytes level ++ path.flatMap toBeBytes ++ asBytes "\x00" ++
    (title.map asBytes).getD [] ++ blockIds.flatMap fun blockId => asBytes "\x00" ++ asBytes blockId)

/-- `u32::try_from(child_index).unwrap_or(u32::MAX)` -/
def childComponent (index : Nat) : Nat :=
  (toU32 index).getD u32Max

/-- `materialize_node`; the first argument bounds the depth. -/
def materializeNode (arena : List DraftNode) (documentId structureVersion : String) :
    Nat → Nat → List Nat → StructureNode
  | 0, _, path => ⟨deterministicNodeId platform documentId structureVersion path .document none 0
      [], .document, none, 0, [], [], []⟩
  | fuel + 1, nodeId, path =>
    let draft := arena.getD nodeId DraftNode.document
    { nodeId := deterministicNodeId platform documentId structureVersion path draft.kind
        draft.title draft.level draft.blockIds
      kind := draft.kind
      title := draft.title
      level := draft.level
      blockIds := draft.blockIds
      sourceSpans := draft.sourceSpans
      children := draft.children.zipIdx.map fun child =>
        materializeNode arena documentId structureVersion fuel child.1
          (path ++ [childComponent child.2]) }

/-! ## Validating the input -/

/-- The block checks of `validate_normalized_input`; answers the block identities seen. -/
def validateInputBlocks (page : NormalizedPage) :
    List String → List NormalizedBlock → Except PipelineFailure (List String)
  | seen, [] => return seen
  | seen, block :: rest => do
    refuseIf (isBlank block.blockId = true ∨ block.blockId ∈ seen ∨ isBlank block.text = true ∨
        block.source.pageStart ≠ page.pageNumber ∨ block.source.pageEnd ≠ page.pageNumber)
      (invalidNormalizedInput
        s!"Normalized block on page {page.pageNumber} has invalid identity, text, or provenance")
    validateInputBlocks page (block.blockId :: seen) rest

/-- The page checks of `validate_normalized_input`, from the given zero-based index. -/
def validateInputPages : Nat → List String → List NormalizedPage → Except PipelineFailure Unit
  | _, _, [] => return ()
  | index, seen, page :: rest => do
    let expected ← okOrElse (toU32 (index + 1))
      (invalidNormalizedInput "Normalized page count exceeds the supported range")
    refuseIf (page.pageNumber ≠ expected)
      (invalidNormalizedInput "Normalized pages are not in canonical one-based order")
    refuseIf (page.content = [] ∧ (page.requiresVisualProcessing = false ∨
        page.warnings.any (·.code == "NO_NATIVE_TEXT") = false))
      (invalidNormalizedInput
        s!"Empty normalized page {page.pageNumber} lacks visual-routing metadata")
    let seen ← validateInputBlocks page seen page.content
    validateInputPages (index + 1) seen rest

def validateNormalizedInput (normalized : NormalizedDocument) : Except PipelineFailure Unit := do
  refuseIf (isBlank normalized.documentId = true ∨ isBlank normalized.normalizationVersion = true)
    (invalidNormalizedInput "Normalized document identity and version must be present")
  validateInputPages 0 [] normalized.pages

/-! ## Validating the output -/

def validateNodeShape (node : StructureNode) (parent : Option StructureNode) :
    Except PipelineFailure Unit :=
  let accepted : Bool := match node.kind, parent with
    | .document, none =>
      node.level == 0 && node.title.isNone && node.blockIds.isEmpty && node.sourceSpans.isEmpty
    | .section, some parent =>
      parent.kind == .document && node.level == 1 && !node.blockIds.isEmpty
    | .subsection, some parent =>
      (parent.kind == .section || parent.kind == .subsection) &&
        toU32 (parent.level + 1) == some node.level && node.level ≤ maxHeadingDepth &&
        !node.blockIds.isEmpty
    | .unstructured, some parent =>
      parent.kind == .document && node.level == 1 && node.title.isNone && !node.blockIds.isEmpty
    | _, _ => false
  refuseIf (accepted = false)
    (invalidStructured
      "Structure node kind, level, ownership, or parent relationship is invalid")

/-- The value of the block with this identity that a map built from the blocks holds. -/
def blockLookup (blocks : List NormalizedBlock) (blockId : String) : Option NormalizedBlock :=
  blocks.reverse.find? (·.blockId == blockId)

def headingSignalForNode (blocks : List NormalizedBlock) (node : StructureNode) :
    Except PipelineFailure HeadingSignal := do
  let blockId ← okOrElse node.blockIds.head?
    (invalidStructured "Structured heading has no source block")
  let block ← okOrElse (blockLookup blocks blockId)
    (invalidStructured "Structured heading references a foreign block")
  okOrElse (detectNumberedHeading platform block.text)
    (invalidStructured "Structured heading lacks a valid source signal")

/-- Answers the heading numberings seen. -/
def validateHeadingSource (blocks : List NormalizedBlock) (node : StructureNode)
    (parent : Option StructureNode) (seen : List (List Nat)) :
    Except PipelineFailure (List (List Nat)) :=
  if node.kind = .section ∨ node.kind = .subsection then do
    let signal ← headingSignalForNode platform blocks node
    refuseIf (toU32 signal.numbering.length ≠ some node.level ∨ signal.title ≠ node.title ∨
        signal.numbering ∈ seen)
      (invalidStructured
        "Structure heading title, level, or numbering does not match its source block")
    if node.kind = .subsection then
      let parent ← okOrElse parent
        (invalidStructured "Structured subsection is missing its heading parent")
      let parentSignal ← headingSignalForNode platform blocks parent
      refuseIf (signal.numbering.dropLast ≠ parentSignal.numbering)
        (invalidStructured "Structured subsection numbering does not match its parent prefix")
    return signal.numbering :: seen
  else
    return seen

/-- What `validate_node` has collected so far. -/
structure NodeVisit where
  referencedBlocks : List String
  nodeIds : List String
  headingNumbering : List (List Nat)
  deriving DecidableEq

def validateSpans (blocks : List NormalizedBlock) :
    List (String × SourceSpan) → Except PipelineFailure Unit
  | [] => return ()
  | (blockId, sourceSpan) :: rest => do
    let expected ← okOrElse (blockLookup blocks blockId)
      (invalidStructured "Structure node references a block outside the normalized document")
    refuseIf (sourceSpan ≠ expected.source)
      (invalidStructured "Structure node source span does not match its normalized block")
    validateSpans blocks rest

/-- The checks of `validate_node` on the node itself. -/
def visitNode (blocks : List NormalizedBlock) (documentId structureVersion : String)
    (node : StructureNode) (parent : Option StructureNode) (path : List Nat) (visit : NodeVisit) :
    Except PipelineFailure NodeVisit := do
  validateNodeShape node parent
  let headingNumbering ← validateHeadingSource platform blocks node parent visit.headingNumbering
  refuseIf (node.blockIds.length ≠ node.sourceSpans.length)
    (invalidStructured "Structure node block and provenance counts differ")
  refuseIf (node.nodeId ≠ deterministicNodeId platform documentId structureVersion path node.kind
      node.title node.level node.blockIds ∨ node.nodeId ∈ visit.nodeIds)
    (invalidStructured "Structure node identity is invalid or duplicated")
  validateSpans blocks (node.blockIds.zip node.sourceSpans)
  return ⟨visit.referencedBlocks ++ node.blockIds, node.nodeId :: visit.nodeIds, headingNumbering⟩

mutual

def validateNode (blocks : List NormalizedBlock) (documentId structureVersion : String) :
    StructureNode → Option StructureNode → List Nat → NodeVisit →
      Except PipelineFailure NodeVisit
  | ⟨nodeId, kind, title, level, blockIds, sourceSpans, children⟩, parent, path, visit => do
    let node : StructureNode := ⟨nodeId, kind, title, level, blockIds, sourceSpans, children⟩
    let visit ← visitNode platform blocks documentId structureVersion node parent path visit
    validateChildren blocks documentId structureVersion children node path 0 visit

def validateChildren (blocks : List NormalizedBlock) (documentId structureVersion : String) :
    List StructureNode → StructureNode → List Nat → Nat → NodeVisit →
      Except PipelineFailure NodeVisit
  | [], _, _, _, visit => return visit
  | child :: rest, parent, path, index, visit => do
    let component ← okOrElse (toU32 index)
      (invalidStructured "Structure node fan-out exceeds the supported range")
    let visit ← validateNode blocks documentId structureVersion child (some parent)
      (path ++ [component]) visit
    validateChildren blocks documentId structureVersion rest parent path (index + 1) visit

end

/-- The blocks of a normalized document in page order. -/
def NormalizedDocument.blocks (normalized : NormalizedDocument) : List NormalizedBlock :=
  normalized.pages.flatMap (·.content)

def NormalizedPage.structurePage (page : NormalizedPage) : StructurePage :=
  ⟨page.pageNumber, page.warnings, page.requiresVisualProcessing⟩

def validateStructuredDocument (structured : StructuredDocument)
    (normalized : NormalizedDocument) (expectedVersion : String) :
    Except PipelineFailure Unit := do
  validateNormalizedInput normalized
  refuseIf (structured.documentId ≠ normalized.documentId)
    (invalidStructured "Structured document identity does not match normalized input")
  refuseIf (isBlank structured.structureVersion = true ∨
      structured.structureVersion ≠ expectedVersion)
    (invalidStructured "Structure version is missing or does not match the interpreter")
  refuseIf (structured.warnings ≠ normalized.warnings)
    (invalidStructured "Structured output did not preserve document warnings")
  refuseIf (structured.pages ≠ normalized.pages.map (·.structurePage))
    (invalidStructured
      "Structured output did not preserve page order, warnings, or visual routing")
  refuseIf (structured.nodes.length ≠ 1)
    (invalidStructured "Structured output must contain exactly one document root")
  let root ← okOrElse structured.nodes.head?
    (invalidStructured "Structured output must contain exactly one document root")
  let visit ← validateNode platform normalized.blocks structured.documentId
    structured.structureVersion root none [0] ⟨[], [], []⟩
  refuseIf (visit.referencedBlocks ≠ normalized.blocks.map (·.blockId))
    (invalidStructured
      "Structured block coverage is incomplete, duplicated, foreign, or out of order")

/-- `DeterministicStructureInterpreter::interpret` -/
def interpret (normalized : NormalizedDocument) : Except PipelineFailure StructuredDocument := do
  validateNormalizedInput normalized
  let outline ← placePages platform Outline.empty normalized.pages
  let root := materializeNode platform outline.arena normalized.documentId structureVersion
    outline.arena.length 0 [0]
  let structured : StructuredDocument :=
    { documentId := normalized.documentId
      structureVersion := structureVersion
      pages := normalized.pages.map (·.structurePage)
      nodes := [root]
      warnings := normalized.warnings }
  validateStructuredDocument platform structured normalized structureVersion
  return structured

end Interpreter

end DocumentSummarizer.Pipeline
