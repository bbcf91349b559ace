import DocumentSummarizer.Library.ParentArena
import DocumentSummarizer.Pipeline.ClauseLines
import DocumentSummarizer.Pipeline.PageFurniture

/-! # The clauses of a contract

One pass over the retained lines opens a clause at every line that numbers or
titles one and gives every other line to the clause before it.
-/

namespace DocumentSummarizer.Pipeline

open Library

/-- A range of a block. -/
structure SourceFragment where
  blockId : String
  start : Nat
  finish : Nat
  deriving DecidableEq, Repr

structure SourceClause where
  headings : List (List Char)
  fragments : List SourceFragment
  parent : Option Nat
  number : Option (List (List Char))
  article : Option Nat
  opening : Bool
  headingOnly : Bool
  boundaryUncertain : Bool
  deriving DecidableEq, Repr

namespace NormalizedDocument

/-- The blocks as a map by identity; the last of an identity is the one found. -/
def findBlock (document : NormalizedDocument) (blockId : String) : Option NormalizedBlock :=
  document.blocks.reverse.find? (·.blockId = blockId)

/-- `&blocks[block_id].text[start..finish]` -/
def slice (document : NormalizedDocument) (fragment : SourceFragment) : Option (List Char) :=
  (document.findBlock fragment.blockId).bind fun block =>
    byteSlice block.text.toList fragment.start fragment.finish

end NormalizedDocument

/-! ## Retained lines -/

/-- A visible piece of a block without the whitespace around it. -/
def trimmedLine (block : NormalizedBlock) (line : Located) : SourceLine :=
  let start := line.start + (byteLength line.text - byteLength (trimStart line.text))
  ⟨block.blockId, start, start + byteLength (trim line.text), block.source.pageStart,
    trim line.text⟩

/-- The visible lines of one retained range. -/
def rangeLines (block : NormalizedBlock) (range : Nat × Nat) : Option (List SourceLine) :=
  (byteSlice block.text.toList range.1 range.2).map fun text =>
    ((located range.1 (splitInclusive '\n' text)).filter (!blank ·.text)).map (trimmedLine block)

/-- The visible lines of a block that its furniture leaves. -/
def blockLines (furniture : Furniture) (block : NormalizedBlock) : Option (List SourceLine) := do
  let ranges ← furniture.retainedRanges block.blockId
  let lines ← ranges.mapM (rangeLines block)
  return lines.flatten

/-- The visible retained lines of a document. -/
def retainedLines (furniture : Furniture) (document : NormalizedDocument) :
    Option (List SourceLine) :=
  (document.blocks.mapM (blockLines furniture)).map List.flatten

def SourceLine.fragment (line : SourceLine) : SourceFragment :=
  ⟨line.blockId, line.start, line.finish⟩

/-! ## Fragments -/

section Appending

variable (document : NormalizedDocument)

/-- The fragments with one more, which continues the last when only space lies between. -/
def appendFragment (fragments : List SourceFragment) (fragment : SourceFragment) :
    Option (List SourceFragment) :=
  match fragments.getLast? with
  | none => some [fragment]
  | some last =>
    if last.blockId = fragment.blockId ∧ last.finish ≤ fragment.start then
      (document.slice ⟨last.blockId, last.finish, fragment.start⟩).map fun gap =>
        if blank gap then
          fragments.dropLast ++ [{ last with finish := fragment.finish }]
        else
          fragments ++ [fragment]
    else
      some (fragments ++ [fragment])

/-- `append_source` -/
def appendSource (clause : SourceClause) (fragment : SourceFragment) : Option SourceClause :=
  (appendFragment document clause.fragments fragment).map fun fragments =>
    { clause with fragments := fragments }

end Appending

def strictChild (child parent : List (List Char)) : Bool :=
  decide (parent.length < child.length) && parent.isPrefixOf child

/-! ## The pass -/

/-- What the pass has found so far. -/
structure ClauseScan where
  clauses : List SourceClause
  /-- The open clauses, the innermost first. -/
  stack : List Nat
  sectionMarkers : List Nat
  tocPage : Option Nat
  deriving DecidableEq, Repr

def markUncertain (clauses : List SourceClause) (index : Nat) : List SourceClause :=
  clauses.modify index fun clause => { clause with boundaryUncertain := true }

namespace ClauseScan

/-- Notes the contents page and whether the boundary at a line is uncertain. -/
def arrive (scan : ClauseScan) (line : SourceLine) (read : ReadLine) : ClauseScan × Bool :=
  let tocPage := if read.toc then some line.page else scan.tocPage.filter (· = line.page)
  let uncertain := decide (read.kind = .headingLike) || tocPage.isSome
  ({ scan with
    tocPage := tocPage
    clauses :=
      if uncertain = true ∨ (read.kind = .heading ∧ read.startsUnit = false) then
        markUncertain scan.clauses (scan.clauses.length - 1)
      else scan.clauses }, uncertain)

/-- Closes the open clauses that a number is not under, up to the enclosing article. -/
def popAncestors (number : List (List Char)) (marked : Bool) :
    List Nat → ClauseScan → Bool → Option (ClauseScan × Bool)
  | [], scan, uncertain => some ({ scan with stack := [] }, uncertain)
  | last :: under, scan, uncertain =>
    scan.clauses[last]?.bind fun clause =>
      if clause.article.isSome = true ∨ clause.number.any (strictChild number) = true then
        some ({ scan with stack := last :: under }, uncertain)
      else if last ∈ scan.sectionMarkers ∧ marked = false then
        -- bare numbering cannot prove that an explicitly marked section ended
        popAncestors number marked under
          { scan with clauses := markUncertain scan.clauses last } true
      else
        popAncestors number marked under scan uncertain

/-- Adds a clause below the innermost open one and opens it. -/
def openClause (scan : ClauseScan) (clause : SourceClause) (marked : Bool) : ClauseScan :=
  { scan with
    clauses := scan.clauses ++ [clause]
    stack := scan.clauses.length :: scan.stack
    sectionMarkers :=
      if marked then scan.clauses.length :: scan.sectionMarkers else scan.sectionMarkers }

section Steps

variable (document : NormalizedDocument)

def articleClause (line : SourceLine) (article : Nat) (title : List Char) (uncertain : Bool) :
    SourceClause where
  headings := [title]
  fragments := [line.fragment]
  parent := none
  number := none
  article := some article
  opening := false
  headingOnly := true
  boundaryUncertain := uncertain

/-- An article closes everything before it; its title may stand on the next line. -/
def openArticle (scan : ClauseScan) (line : SourceLine) (read : ReadLine) (uncertain : Bool)
    (article : Nat) (title : List Char) (rest : List (SourceLine × ReadLine)) :
    Option (ClauseScan × List (SourceLine × ReadLine)) :=
  let scan : ClauseScan := { scan with stack := [] }
  let clause := articleClause line article title uncertain
  if read.articleLines = 2 then
    match rest with
    | [] => none
    | (second, _) :: rest =>
      (appendSource document clause second.fragment).map fun clause =>
        (scan.openClause clause false, rest)
  else
    some (scan.openClause clause false, rest)

/-- The title clause above a number that no open clause has. -/
def titleClause (line : SourceLine) (heading : List Char) (number : List (List Char))
    (parent : Option Nat) (uncertain : Bool) : SourceClause where
  headings := [heading]
  fragments := [line.fragment]
  parent := parent
  number := some number
  article := none
  opening := false
  headingOnly := true
  boundaryUncertain := uncertain

/-- Opens the parent clause of a leading title when its number is not open. -/
def openTitle (scan : ClauseScan) (number : List (List Char)) (marked uncertain : Bool)
    (leading : Option (SourceLine × List Char)) :
    ClauseScan × Option (SourceLine × List Char) :=
  match leading with
  | some (line, heading) =>
    if 1 < number.length ∧
        (scan.stack.any fun index => scan.clauses[index]?.any fun clause =>
          clause.number = some number.dropLast) = false then
      (scan.openClause
        (titleClause line heading number.dropLast scan.stack.head? uncertain) marked, none)
    else
      (scan, leading)
  | none => (scan, none)

/-- Opens the clause of a number, with the leading title that stays with it. -/
def openNumber (scan : ClauseScan) (line : SourceLine) (number : List (List Char))
    (rest : List Char) (marked uncertain : Bool) (leading : Option (SourceLine × List Char)) :
    Option ClauseScan := do
  let (title, hasBody) := contractTitle rest
  let clause : SourceClause := {
    headings := (leading.map (·.2)).toList ++ if title = [] then [] else [title]
    fragments := (leading.map (·.1.fragment)).toList
    parent := scan.stack.head?
    number := some number
    article := none
    opening := false
    headingOnly := !hasBody && leading.isNone
    boundaryUncertain := uncertain }
  let clause ← appendSource document clause line.fragment
  return scan.openClause clause marked

/-- A line that opens nothing belongs to the last clause, or to the opening. -/
def addText (scan : ClauseScan) (line : SourceLine) (uncertain : Bool) : Option ClauseScan :=
  match scan.clauses.getLast? with
  | some clause => do
    let clause ← appendSource document { clause with
      headingOnly := false
      boundaryUncertain := clause.boundaryUncertain || uncertain } line.fragment
    return { scan with clauses := scan.clauses.dropLast ++ [clause] }
  | none =>
    some { scan with
      clauses := [{
        headings := []
        fragments := [line.fragment]
        parent := none
        number := none
        article := none
        opening := true
        headingOnly := false
        boundaryUncertain := uncertain }] }

/-- The title in front of a numbered line, when the next line is one. -/
def leadingLine (line : SourceLine) (read : ReadLine) (rest : List (SourceLine × ReadLine)) :
    Option ((SourceLine × List Char) × (SourceLine × ReadLine) × List (List Char) × List Char) :=
  if read.number = none ∧ read.startsUnit = true ∧ read.title = true then
    rest.head?.bind fun (next, nextRead) => nextRead.number.map fun numbered =>
      ((line, line.text.rdropWhile fun c => c == '.' || c == ':'), (next, nextRead), numbered)
  else
    none

/-- Opens the clause of a numbered line: closes, perhaps titles, then opens. -/
def openNumbered (scan : ClauseScan) (line : SourceLine) (read : ReadLine) (uncertain : Bool)
    (numbered : List (List Char) × List Char) (leading : Option (SourceLine × List Char)) :
    Option ClauseScan := do
  let (scan, uncertain) ← popAncestors numbered.1 read.sectionMarked scan.stack scan uncertain
  let (scan, leading) := openTitle scan numbered.1 read.sectionMarked uncertain leading
  openNumber document scan line numbered.1 numbered.2 read.sectionMarked uncertain leading

/-- One turn of the loop: the lines it takes are gone from those that remain. -/
def step (scan : ClauseScan) (line : SourceLine) (read : ReadLine)
    (rest : List (SourceLine × ReadLine)) :
    Option (ClauseScan × List (SourceLine × ReadLine)) :=
  let (scan, uncertain) := scan.arrive line read
  match read.article.or read.roman with
  | some (article, title) => openArticle document scan line read uncertain article title rest
  | none =>
    match leadingLine line read rest with
    | some (leading, (next, nextRead), numbered) =>
      (openNumbered document scan next nextRead uncertain numbered (some leading)).map
        fun scan => (scan, rest.tail)
    | none =>
      match read.number with
      | some numbered =>
        (openNumbered document scan line read uncertain numbered none).map fun scan => (scan, rest)
      | none => (addText document scan line uncertain).map fun scan => (scan, rest)

/-- The loop; `fuel` bounds the lines that remain. -/
def run : Nat → ClauseScan → List (SourceLine × ReadLine) → Option ClauseScan
  | _, scan, [] => some scan
  | 0, _, _ :: _ => none
  | fuel + 1, scan, (line, read) :: rest =>
    (step document scan line read rest).bind fun (scan, rest) => run fuel scan rest

end Steps

end ClauseScan

/-- `contract_sources_for_policy` -/
def contractSources (unicode : Unicode) (document : NormalizedDocument) (policy : FurniturePolicy)
    (grammar : HeadingGrammar) : Option (List SourceClause) := do
  let furniture ← Furniture.forPolicy unicode document policy
  let lines ← retainedLines furniture document
  let scan ← ClauseScan.run document lines.length ⟨[], [], [], none⟩
    (readLines unicode grammar lines)
  return scan.clauses

def sectionMembers (clauses : List SourceClause) (root : Nat) : Option (List Nat) :=
  members (·.parent) clauses root

end DocumentSummarizer.Pipeline
