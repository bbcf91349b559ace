import Mathlib.Data.List.Sort
import DocumentSummarizer.Library.Gaps
import DocumentSummarizer.Pipeline.PageSelection
import DocumentSummarizer.Pipeline.SourceText

/-! # Page furniture

Running headers, footers and notices are excluded as byte ranges of their blocks
before any quote is packed.
-/

namespace DocumentSummarizer.Pipeline

open Library

inductive FurniturePolicy where
  | original
  | runningMetadata
  deriving DecidableEq, Repr

structure Candidate where
  blockId : String
  page : Nat
  start : Nat
  finish : Nat
  key : Option (List Char)
  minimumPages : Nat
  deriving DecidableEq, Repr

structure Furniture where
  policy : FurniturePolicy
  removedAny : Bool
  /-- By block identity, the latest first. -/
  retained : List (String × List (Nat × Nat))
  excludedPages : Finset Nat
  deriving DecidableEq

namespace Furniture

section Labels

variable (unicode : Unicode)

/-- `normalized` -/
def normalizedText (text : List Char) : List Char :=
  unicode.toLowercase (joined [' '] (splitWhitespace text))

def repeatedKey (text : List Char) : List Char :=
  (normalizedText unicode text).filter (!·.isDigit)

def numberedHeading (text : List Char) : Bool :=
  let text := trimStart ((trim text).dropWhile (· == '§'))
  match splitOnceWhere isWhitespace text with
  | none => false
  | some (number, rest) =>
    let number := number.rdropWhile (fun c => c == '.' || c == ')')
    !number.isEmpty &&
      (splitWhere (· == '.') number).all (fun part => !part.isEmpty && part.all Char.isDigit) &&
      (trimStart rest).head?.any unicode.isUppercase

def operativeWords : List (List Char) :=
  ["shall", "must", "may", "unless", "except", "provided", "if", "when", "requires",
    "required"].map String.toList

def operative (text : List Char) : Bool :=
  (splitWhere (!unicode.isAlphanumeric ·) (normalizedText unicode text)).any (· ∈ operativeWords)

/-- `page_number` -/
def isPageNumber (text : List Char) (page : Nat) : Bool :=
  let text := normalizedText unicode text
  let bare := (toString page).toList
  if text = bare ∨ text = "page ".toList ++ bare then
    true
  else
    let text := (stripStart "page ".toList text).getD text
    [" of ".toList, " / ".toList, "/".toList].any fun separator =>
      (splitOnceText separator text).any fun parts =>
        decide (parts.1 = bare) && (parseU32 parts.2).any (page ≤ ·)

def titleKinds : List (List Char) :=
  ["agreement", "contract", "report", "manual", "guide"].map String.toList

def markings : List (List Char) :=
  ["confidential", "internal use only", "draft"].map String.toList

def runningLabel (text : List Char) (page : Nat) : Bool :=
  let text := trim text
  if byteLength text > 120 ∨ (splitWhitespace text).length > 12 ∨
      numberedHeading unicode text = true ∨ operative unicode text = true ∨
      text.any (· ∈ ['.', ';', '!', '?', '$', '€']) = true then
    false
  else
    let lower := normalizedText unicode text
    if lower ∈ markings then
      true
    else if (rsplitOnce " | ".toList lower).any (fun parts => isPageNumber unicode parts.2 page)
        = true then
      true
    else
      -- a repeated document title is furniture, a governing clause title is not
      (text.filter unicode.isAlphabetic).all unicode.isUppercase &&
        titleKinds.any (·.isSuffixOf lower)

def isAsciiAlphanumeric (c : Char) : Bool :=
  c.isAlphanum

def filingLabel (text : List Char) : Bool :=
  match splitWhitespace text with
  | [label, id] =>
    label == "exhibit".toList && id.any Char.isDigit &&
      (splitWhere (· == '.') id).all fun part => !part.isEmpty && part.all isAsciiAlphanumeric
  | _ => false

def weekdays : List (List Char) :=
  ["monday", "tuesday", "wednesday", "thursday", "friday", "saturday", "sunday"].map String.toList

def months : List (List Char) :=
  ["january", "february", "march", "april", "may", "june", "july", "august", "september",
    "october", "november", "december"].map String.toList

def trimCommas (word : List Char) : List Char :=
  word.rdropWhile (· == ',')

def dateLabel (words : List (List Char)) : Bool :=
  let words := match words with
    | day :: rest => if trimCommas day ∈ weekdays then rest else words
    | [] => words
  match words with
  | [month, day, year] =>
    decide (month ∈ months) && (parseU32 (trimCommas day)).any (fun day => 1 ≤ day && day ≤ 31) &&
      byteLength year == 4 && year.all Char.isDigit
  | _ => false

/-- The page counter of a line with the word "page" at `index`. -/
def pageCounterKey (words : List (List Char)) (index : Nat) : Option (List Char × Bool) := do
  let number ← parseU32 (← words[index + 1]?)
  if number = 0 then
    none
  else
    let finish ←
      if words[index + 2]? = some "of".toList ∨ words[index + 2]? = some "/".toList then do
        let total ← parseU32 (← words[index + 3]?)
        if total < number then none else some (index + 4)
      else
        some (index + 2)
    if finish ≠ words.length ∧ dateLabel (words.drop finish) = false then
      none
    else
      some (joined [' '] (words.set (index + 1) ['#']),
        decide (0 < index) || finish != words.length)

def dropBars : List Char → List Char
  | '|' :: ' ' :: rest => dropBars rest
  | text => text

/-- `text.trim_end_matches(" |")` -/
def trimBars (text : List Char) : List Char :=
  (dropBars text.reverse).reverse

/-- Counters are canonicalized only in a field that this grammar admits. -/
def metadataKey (text : List Char) : Option (List Char × Bool) :=
  let lower := normalizedText unicode text
  let words := splitWhitespace lower
  if words = [] ∨ byteLength text > 180 ∨ words.length > 20 then
    none
  else if filingLabel lower then
    some (lower, false)
  else if (words.head?.bind parseU32).any (0 < ·) = true ∧ dateLabel words.tail = true then
    some ("# ".toList ++ joined [' '] words.tail, true)
  else if dateLabel words then
    some (lower, true)
  else if operative unicode text = true ∨ numberedHeading unicode text = true ∨
      text.any (· ∈ [';', '!', '?', '$', '€']) = true then
    none
  else if "page".toList ∈ words then
    pageCounterKey words (words.idxOf "page".toList)
  else if '.' ∈ text then
    none
  else if lower ∈ markings then
    some (lower, false)
  else if titleKinds.any (·.isSuffixOf lower) then
    some (lower, false)
  else
    match rsplitOnce [' '] lower with
    | some (front, counter) =>
      if (parseU32 counter).any (0 < ·) = true ∧
          titleKinds.any (·.isSuffixOf (trimBars front)) = true then
        some (front ++ " #".toList, true)
      else
        none
    | none => none

def edgarHeader (text : List Char) : Bool :=
  match splitWhitespace text with
  | exhibit :: ordinal :: file :: rest =>
    decide (rest.length ≤ 27) && !operative unicode text &&
      (stripStart "EX-".toList exhibit).any (fun value =>
        (splitWhere (· == '.') value).all fun part => !part.isEmpty && part.all Char.isDigit) &&
      ordinal.all Char.isDigit &&
      [".htm", ".html", ".txt"].any (fun kind =>
        kind.toList.isSuffixOf (file.map Char.toLower)) &&
      file.all fun c => isAsciiAlphanumeric c || c ∈ ['.', '_', '-']
  | _ => false

end Labels

/-! ## Candidates -/

section Candidates

variable (unicode : Unicode) (document : NormalizedDocument)

/-- A visible line of a page: its block, its place there and its trimmed text. -/
structure PageLine where
  blockId : String
  start : Nat
  finish : Nat
  text : List Char

def pageLines (page : NormalizedPage) : List PageLine :=
  page.content.flatMap fun block =>
    ((locatedLines block.text.toList).filter (!blank ·.text)).map fun line =>
      ⟨block.blockId, line.start, line.finish, trim line.text⟩

/-- The key of a repeated initials or party row, which belongs to the footer only after a marked
document or date footer and its initials row. -/
def initialsKey (lines : List PageLine) (keys : List (Option (List Char × Bool))) (index : Nat)
    (text : List Char) : Option (List Char) := do
  if operative unicode text = true ∨ numberedHeading unicode text = true ∨
      byteLength text > 100 ∨ text.any (· ∈ ['.', ';', '!', '?', '$']) = true then
    none
  else
    let first := lines.length - 4
    let anchor ← (List.range' first (index - first)).reverse.find? fun i =>
      (keys[i]?.bind id).any (·.2)
    let initials ← (List.range' (anchor + 1) (index - anchor)).find? fun i =>
      lines[i]?.any fun line => containsText "initials".toList (normalizedText unicode line.text)
    if initials = index ∨
        (initials + 1 = index ∧ (text.filter unicode.isAlphabetic).all unicode.isUppercase) then
      some (normalizedText unicode text)
    else
      none

def sideKey (side : String) (position : Nat) (key : List Char) : List Char :=
  side.toList ++ ':' :: ((toString position).toList ++ ':' :: key)

/-- What the line at `index` of a page adds to `metadata_candidates`. -/
def metadataLineCandidates (minimumPages pageIndex : Nat) (page : NormalizedPage)
    (lines : List PageLine) (keys : List (Option (List Char × Bool))) (index : Nat)
    (line : PageLine) : List Candidate :=
  let bottom := lines.length - index - 1
  let candidate (key : Option (List Char)) : Candidate :=
    ⟨line.blockId, page.pageNumber, line.start, line.finish, key, minimumPages⟩
  if (pageIndex = 0 ∧ index = 0 ∧ edgarHeader unicode line.text = true) ∨
      ((index = 0 ∨ bottom = 0) ∧ isPageNumber unicode line.text page.pageNumber = true) then
    [candidate none]
  else
    [("top", index), ("bottom", bottom)].filterMap fun (side, position) =>
      if 4 ≤ position then
        none
      else
        let key := ((keys[index]?.bind id).map (·.1)).or
          (if side ≠ "bottom" then none else initialsKey unicode lines keys index line.text)
        key.map fun key => candidate (some (sideKey side position key))

def metadataPageCandidates (minimumPages pageIndex : Nat) (page : NormalizedPage) :
    List Candidate :=
  let lines := pageLines page
  let keys := lines.map fun line => metadataKey unicode line.text
  (lines.zipIdx.flatMap fun (line, index) =>
    metadataLineCandidates unicode minimumPages pageIndex page lines keys index line)

def metadataCandidates : List Candidate :=
  let minimumPages := max (document.nativePages.toFinset.card / 2 + 1) 2
  document.pages.zipIdx.flatMap fun (page, pageIndex) =>
    metadataPageCandidates unicode minimumPages pageIndex page

/-- Whether the line is the first visible one of its page or the last. -/
def isEdge (page : NormalizedPage) (blockIndex : Nat) (lines : List Located) (index : Nat) :
    Bool :=
  let nonempty := (lines.zipIdx.filter (!blank ·.1.text)).map (·.2)
  decide (blockIndex = 0 ∧ nonempty.head? = some index) ||
    decide (blockIndex + 1 = page.content.length ∧ nonempty.getLast? = some index)

/-- The line of an edge under the original policy. -/
def edgeCandidate (page : NormalizedPage) (block : NormalizedBlock) (blockIndex : Nat)
    (lines : List Located) (index : Nat) (line : Located) : List Candidate :=
  if isEdge page blockIndex lines index = true ∧
      (isPageNumber unicode line.text page.pageNumber = true ∨
        runningLabel unicode line.text page.pageNumber = true) then
    [⟨block.blockId, page.pageNumber, line.start, line.finish,
      if isPageNumber unicode line.text page.pageNumber then none
      else some (repeatedKey unicode line.text), 2⟩]
  else
    []

/-- The lines of a notice: visible, and no numbered heading. -/
def noticeLines (lines : List Located) : List Located :=
  lines.takeWhile fun line => !blank line.text && !numberedHeading unicode line.text

/-- The blank lines and page counters attached to a notice. -/
def attachedCounters (page : NormalizedPage) (lines : List Located) : List Located :=
  lines.takeWhile fun line => blank line.text || isPageNumber unicode line.text page.pageNumber

def isNotice (text : List Char) : Bool :=
  let lower := normalizedText unicode text
  containsText "rights reserved".toList lower &&
    (containsText "trademark".toList lower || containsText "licensed reproduction".toList lower ||
      containsText "electronically produced".toList lower) &&
    !operative unicode text

/-- The copyright notice that starts at a line. -/
def noticeCandidate (policy : FurniturePolicy) (page : NormalizedPage) (block : NormalizedBlock)
    (lines : List Located) (index : Nat) (line : Located) : Option (List Candidate) :=
  if (index < 16 ∨ lines.length ≤ index + 16) ∧
      containsText "copyright".toList (normalizedText unicode line.text) = true ∧
      numberedHeading unicode line.text = false then do
    let notice := noticeLines unicode (lines.drop index)
    let noticeEnd := (notice.getLast?.map (·.finish)).getD line.finish
    let text ← byteSlice block.text.toList line.start noticeEnd
    if isNotice unicode text then
      let attached := attachedCounters unicode page (lines.drop (index + notice.length))
      some [⟨block.blockId, page.pageNumber, line.start,
        (attached.getLast?.map (·.finish)).getD noticeEnd,
        some (if policy = .original then repeatedKey unicode line.text
          else normalizedText unicode line.text), 2⟩]
    else
      some []
  else
    some []

def blockCandidates (policy : FurniturePolicy) (page : NormalizedPage) (block : NormalizedBlock)
    (blockIndex : Nat) : Option (List Candidate) := do
  let lines := locatedLines block.text.toList
  let perLine ← lines.zipIdx.mapM fun (line, index) => do
    let notice ← noticeCandidate unicode policy page block lines index line
    return (if policy = .original then edgeCandidate unicode page block blockIndex lines index line
      else []) ++ notice
  return perLine.flatten

def pageCandidates (policy : FurniturePolicy) (page : NormalizedPage) :
    Option (List Candidate) := do
  let perBlock ← page.content.zipIdx.mapM fun (block, blockIndex) =>
    blockCandidates unicode policy page block blockIndex
  return perBlock.flatten

/-- All candidates of `for_policy`. -/
def candidates (policy : FurniturePolicy) : Option (List Candidate) := do
  let perPage ← document.pages.mapM (pageCandidates unicode policy)
  return (if policy = .runningMetadata then metadataCandidates unicode document else []) ++
    perPage.flatten

end Candidates

/-! ## The furniture of a document -/

/-- The distinct pages of the candidates with a key. -/
def keyPages (candidates : List Candidate) (key : List Char) : Finset Nat :=
  ((candidates.filter (·.key = some key)).map (·.page)).toFinset

/-- Whether a candidate is removed: without a key always, with one when it recurs. -/
def recurs (candidates : List Candidate) (candidate : Candidate) : Bool :=
  match candidate.key with
  | none => true
  | some key => candidate.minimumPages ≤ (keyPages candidates key).card

/-- The order that `sort_unstable` uses. -/
abbrev RangeLe (a b : Nat × Nat) : Prop :=
  a.1 < b.1 ∨ a.1 = b.1 ∧ a.2 ≤ b.2

def excludedRanges (candidates : List Candidate) (block : NormalizedBlock) : List (Nat × Nat) :=
  ((candidates.filter fun candidate =>
    candidate.blockId = block.blockId ∧ recurs candidates candidate = true).map
      fun candidate => (candidate.start, candidate.finish)).insertionSort RangeLe

/-- The retained ranges of a block and whether one of them has visible text. -/
def retainBlock (candidates : List Candidate) (block : NormalizedBlock) :
    Option (List (Nat × Nat) × Bool) := do
  let ranges := gaps (byteLength block.text.toList) 0 (excludedRanges candidates block)
  let texts ← ranges.mapM fun range => byteSlice block.text.toList range.1 range.2
  return (ranges, texts.any (!blank ·))

def retainPage (candidates : List Candidate) (page : NormalizedPage) :
    Option (List (String × List (Nat × Nat)) × Bool) := do
  let blocks ← page.content.mapM (retainBlock candidates)
  return ((page.content.map (·.blockId)).zip (blocks.map (·.1)), blocks.any (·.2))

/-- `Furniture::for_policy` -/
def forPolicy (unicode : Unicode) (document : NormalizedDocument) (policy : FurniturePolicy) :
    Option Furniture := do
  let candidates ← candidates unicode document policy
  let pages ← document.pages.mapM (retainPage candidates)
  return {
    policy := policy
    removedAny := document.blocks.any fun block => !(excludedRanges candidates block).isEmpty
    retained := (pages.flatMap (·.1)).reverse
    excludedPages := ((document.pages.zip pages).filterMap fun (page, _, substantive) =>
      if page.pageNumber ∈ document.nativePages ∧ substantive = false then some page.pageNumber
      else none).toFinset }

/-- `retained_ranges` -/
def retainedRanges (furniture : Furniture) (blockId : String) : Option (List (Nat × Nat)) :=
  furniture.retained.lookup blockId

def warning (furniture : Furniture) : Option PipelineWarning :=
  if furniture.excludedPages = ∅ ∧
      (furniture.policy = .original ∨ furniture.removedAny = false) then
    none
  else
    let pages := toString (furniture.excludedPages.sort (· ≤ ·))
    some ⟨"SUMMARY_FURNITURE_PAGES_EXCLUDED",
      match furniture.policy with
      | .original => "Pages " ++ pages ++ " contain only recognized page furniture; excluded " ++
          "from coherent excerpt selection and both page-coverage totals"
      | .runningMetadata => "Recognized page furniture excluded under furniture policy 2; " ++
          "fully excluded pages " ++ pages ++ " are omitted from both page-coverage totals",
      some .synthesize⟩

end Furniture

/-- `furniture_coverage_exclusions`: a warning activates the policy that it names, but chooses no
page. -/
def furnitureCoverageExclusions (unicode : Unicode) (warnings : List PipelineWarning)
    (document : NormalizedDocument) : Option (Finset Nat) := do
  let supplied := warnings.filter (·.code == "SUMMARY_FURNITURE_PAGES_EXCLUDED")
  if supplied = [] then
    return ∅
  else
    let running ← Furniture.forPolicy unicode document .runningMetadata
    if running.warning.any (fun expected => supplied = [expected]) then
      return running.excludedPages
    else
      let original ← Furniture.forPolicy unicode document .original
      if original.warning.any (fun expected => supplied = [expected]) then
        return original.excludedPages
      else
        return ∅

end DocumentSummarizer.Pipeline
