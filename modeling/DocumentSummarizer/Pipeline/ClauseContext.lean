import DocumentSummarizer.Pipeline.PageFurniture
import DocumentSummarizer.Pipeline.QuoteSegments

/-! # The context of a clause

A General source keeps its numbered clauses whole.  One pass cuts the retained
text at the numbered lines; each fragment of a clause is then offered with what
governs it, and the text in front of the first number in ordinary segments.
-/

namespace DocumentSummarizer.Pipeline

open Library

structure Clause where
  number : List Char
  /-- The clauses above it, the outermost first. -/
  parents : List Nat
  fragments : List (List Char)
  deriving DecidableEq, Repr

/-- A piece of a block and the clause that it continues. -/
structure ClausePiece where
  blockId : String
  clause : Option Nat
  text : List Char
  deriving DecidableEq, Repr

structure ClausePass where
  clauses : List Clause
  order : List ClausePiece
  active : Option Nat
  parents : List Nat
  deriving DecidableEq, Repr

structure Clauses where
  segments : String → Option (List (List Char))
  contexts : String × List Char → Option (List Char)
  omitted : String → Option Nat

namespace Clauses

def markerPart (part : List Char) : Bool :=
  !part.isEmpty && decide (byteLength part ≤ 3) && part.all Char.isDigit

section Reading

variable (unicode : Unicode)

/-- The number at the start of a line in front of a capital letter. -/
def number (line : List Char) : Option (List Char) := do
  let (marker, rest) ← splitOnceWhere isWhitespace
    (trimStart ((trim line).dropWhile (· == '§')))
  let marker := marker.rdropWhile fun c => c == '.' || c == ')'
  if marker ≠ [] ∧ (splitWhere (· == '.') marker).all markerPart = true ∧
      (trimStart rest).head?.any unicode.isUppercase = true then
    some marker
  else
    none

/-- A printed title in front of a numbered line, which opens the clause of that line. -/
def governingTitle (text : List Char) : Bool :=
  !text.isEmpty && text.any unicode.isAlphabetic &&
    text.all fun c => isWhitespace c || unicode.isUppercase c

section Block

variable (block : NormalizedBlock)

/-- The visible text of a range goes to the active clause. -/
def append (start finish : Nat) (pass : ClausePass) : Option ClausePass :=
  (byteSlice block.text.toList start finish).map fun text =>
    let text := trim text
    if text = [] then
      pass
    else
      { pass with
        clauses := match pass.active with
          | some index => pass.clauses.modify index fun clause =>
              { clause with fragments := clause.fragments ++ [text] }
          | none => pass.clauses
        order := pass.order ++ [⟨block.blockId, pass.active, text⟩] }

/-- Opens a clause below the clauses whose numbers its own continues. -/
def openClause (marker : List Char) (pass : ClausePass) : ClausePass :=
  let parents := pass.parents.rdropWhile fun index =>
    !pass.clauses[index]?.any fun clause => (clause.number ++ ['.']).isPrefixOf marker
  { pass with
    clauses := pass.clauses ++ [⟨marker, parents, []⟩]
    parents := parents ++ [pass.clauses.length]
    active := some pass.clauses.length }

/-- The loop over the lines of a range, with the start of what is not given to a clause yet. -/
def readLines : Nat → ClausePass → List Located → Option (Nat × ClausePass)
  | start, pass, [] => some (start, pass)
  | start, pass, line :: rest =>
    match number unicode line.text with
    | none => readLines start pass rest
    | some marker => do
      let front ← byteSlice block.text.toList start line.start
      if governingTitle unicode (trim front) then
        readLines start (openClause marker pass) rest
      else do
        let pass ← append block start line.start pass
        readLines line.start (openClause marker pass) rest

def readRange (pass : ClausePass) (range : Nat × Nat) : Option ClausePass := do
  let text ← byteSlice block.text.toList range.1 range.2
  let (start, pass) ← readLines unicode block range.1 pass
    (located range.1 (splitInclusive '\n' text))
  append block start range.2 pass

end Block

def readBlock (furniture : Furniture) (pass : ClausePass) (block : NormalizedBlock) :
    Option ClausePass := do
  let ranges ← furniture.retainedRanges block.blockId
  ranges.foldlM (readRange unicode block) pass

/-- The pass over the blocks in their order. -/
def readDocument (document : NormalizedDocument) (furniture : Furniture) : Option ClausePass :=
  document.blocks.foldlM (readBlock unicode furniture) ⟨[], [], none, []⟩

end Reading

/-- The fragments that govern a clause, the outermost first, and its own. -/
def contextOf (clauses : List Clause) (index : Nat) : Option (List Char) := do
  let clause ← clauses[index]?
  let governing ← (clause.parents ++ [index]).mapM (clauses[·]?)
  return joined ['\n', '\n'] (governing.flatMap (·.fragments))

/-- Wording that has another context already has none. -/
def insertContext (contexts : String × List Char → Option (List Char))
    (key : String × List Char) (context : List Char) :
    String × List Char → Option (List Char) :=
  match contexts key with
  | some previous =>
    if previous = context then contexts else Function.update contexts key (some [])
  | none => Function.update contexts key (some context)

section Sources

variable (tables : SentenceTables) (version : String)

/-- The segments of a piece: itself when it belongs to a clause. -/
def pieceSegmentation (piece : ClausePiece) : Option QuoteSegmentation :=
  if piece.clause.isSome then some ⟨[piece.text], 0⟩
  else quoteSegmentationForVersion tables version piece.text

def record (clauses : List Clause) (result : Clauses) (piece : ClausePiece) : Option Clauses := do
  let output := (result.segments piece.blockId).getD []
  match piece.clause with
  | some index =>
    let context ← contextOf clauses index
    return {
      segments := Function.update result.segments piece.blockId (some (output ++ [piece.text]))
      contexts := insertContext result.contexts (piece.blockId, piece.text) context
      omitted := result.omitted }
  | none =>
    let segmentation ← quoteSegmentationForVersion tables version piece.text
    return {
      segments :=
        Function.update result.segments piece.blockId (some (output ++ segmentation.segments))
      contexts := result.contexts
      omitted := Function.update result.omitted piece.blockId
        (some ((result.omitted piece.blockId).getD 0 + segmentation.omittedSourceUnits)) }

/-- `Clauses::new` -/
def ofDocument (document : NormalizedDocument) (furniture : Furniture) : Option Clauses := do
  let pass ← readDocument tables.unicode document furniture
  pass.order.foldlM (record tables version pass.clauses)
    ⟨fun _ => none, fun _ => none, fun _ => none⟩

end Sources

def ambiguous (clauses : Clauses) (blockId : String) (quote : List Char) : Bool :=
  (clauses.contexts (blockId, quote)).any (·.isEmpty)

def segment (clauses : Clauses) (block : NormalizedBlock) : QuoteSegmentation :=
  let segments := (clauses.segments block.blockId).getD []
  { segments := segments.filter (!clauses.ambiguous block.blockId ·)
    omittedSourceUnits := (clauses.omitted block.blockId).getD 0 +
      (segments.filter (clauses.ambiguous block.blockId)).length }

def context (clauses : Clauses) (blockId : String) (quote : List Char) : Option (List Char) :=
  (clauses.contexts (blockId, quote)).filter (!·.isEmpty)

end Clauses

end DocumentSummarizer.Pipeline
