import DocumentSummarizer.Coherent.FramingContinuations

/-! # Source framing by lines

The lines of a block are read one after another.  A line may turn the framing of what follows
on and off at several places; a segment stands under the framing at its start.
-/

namespace DocumentSummarizer.Coherent

open Library Pipeline

structure SourceFramingState where
  active : Option SourceFraming
  suspended : Option SourceFraming
  pendingBareNoAnswer : Option SourceFraming
  deriving DecidableEq, Repr

/-- The framing from an offset on. -/
structure Transition where
  offset : Nat
  next : Option SourceFraming
  deriving DecidableEq, Repr

structure SourceFramingLineUpdate where
  state : SourceFramingState
  transitions : List Transition
  deriving DecidableEq, Repr

/-- The state of the reading of a line. -/
structure LineScan where
  framing : Option SourceFraming
  suspended : Option SourceFraming
  transitions : List Transition
  pendingBareNoAnswer : Option SourceFraming
  bareNoAnswerAllowed : Bool
  deriving DecidableEq, Repr

/-- The framing changes at an offset. -/
def LineScan.turn (scan : LineScan) (framing suspended : Option SourceFraming) (offset : Nat) :
    LineScan :=
  { scan with framing, suspended, transitions := scan.transitions ++ [⟨offset, framing⟩] }

def LineScan.allow (scan : LineScan) (allowed : Bool) : LineScan :=
  { scan with bareNoAnswerAllowed := allowed }

/-- A question without an answer on its line may be answered on the next one. -/
def LineScan.await (scan : LineScan) (unanswered : Bool) : LineScan :=
  if unanswered then { scan with pendingBareNoAnswer := scan.framing } else scan

section Updates

variable (unicode : Unicode)

def applySectionDenialUpdateWithAnswerContext (scan : LineScan) (baseOffset : Nat)
    (text : List Char) (allowBareNoAnswer : Bool) : LineScan :=
  match scan.framing with
  | none => scan
  | some activeFraming =>
    match sectionDenialUpdateWithAnswerContext unicode text activeFraming allowBareNoAnswer with
    | none => scan
    | some update =>
      let denied := scan.turn none (some activeFraming) (baseOffset + update.denialOffset)
      match update.reintroductionOffset with
      | none => denied
      | some offset => denied.turn (some activeFraming) none (baseOffset + offset)

def applySectionDenialUpdate (scan : LineScan) (baseOffset : Nat) (text : List Char) :
    LineScan :=
  applySectionDenialUpdateWithAnswerContext unicode scan baseOffset text false

/-- A suspended framing may be taken up again by a text. -/
def reintroduce (scan : LineScan) (baseOffset : Nat) (text : List Char) : LineScan :=
  match scan.framing, scan.suspended with
  | none, some category =>
    match sourceFramingReintroductionOffset unicode text category
        (coordinatedContinuationLead unicode text) with
    | none => scan
    | some offset => scan.turn (some category) none (baseOffset + offset)
  | _, _ => scan

def applySuspendedFramingReintroduction (scan : LineScan) (baseOffset : Nat)
    (text : List Char) : LineScan :=
  reintroduce unicode scan baseOffset (firstSourceSentence text)

/-- A heading in front of a delimiter; without a body it counts from its own start. -/
def applyHeading (scan : LineScan) (next : Option SourceFraming) (headingOffset bodyOffset : Nat)
    (body : List Char) : LineScan :=
  (applySectionDenialUpdate unicode
    (scan.turn next none (if blank body then headingOffset else bodyOffset)) bodyOffset body).allow
    false

def questionUpdate (scan : LineScan) (leadingWhitespace : Nat) (front : List Char)
    (delimiter : Char) (answer : List Char) : LineScan :=
  let (candidate, headingOffset) := inlineHeadingPrefix front
  let allowed := scan.framing.any (sectionQuestionAcceptsBareNo unicode candidate)
  let scan := scan.allow allowed
  let scan :=
    if possibleInterrogativeFramingBoundary unicode candidate && !allowed then
      scan.turn none none (leadingWhitespace + headingOffset)
    else scan
  applySectionDenialUpdateWithAnswerContext unicode (scan.await (allowed && blank answer))
    (leadingWhitespace + byteLength front + delimiter.utf8Size) answer allowed

def sentenceUpdate (scan : LineScan) (leadingWhitespace : Nat) (front : List Char)
    (delimiter : Char) (rest : List Char) : LineScan :=
  let offset := leadingWhitespace + byteLength front + delimiter.utf8Size
  (applySectionDenialUpdate unicode
    (applySuspendedFramingReintroduction unicode scan offset rest) offset rest).allow false

/-- `is_spaced_ascii_heading_hyphen` of what is around a hyphen. -/
def isSpacedAsciiHeadingHyphen (front rest : List Char) : Bool :=
  front.getLast?.any isAsciiWhitespace && rest.head?.any isAsciiWhitespace

/-- Behind a coordinator or a semicolon there may be a denial. -/
def coordinatedDenial (scan : LineScan) (leadingWhitespace : Nat) (front : List Char)
    (delimiter : Char) (rest : List Char) : LineScan :=
  let offset := leadingWhitespace + byteLength front + delimiter.utf8Size
  if delimiter = '-' then scan.allow false
  else if coordinatedContinuationLead unicode rest then
    let denial := continuationAfterCoordinator unicode rest
    (applySectionDenialUpdate unicode scan
      (offset + (byteLength rest - byteLength denial)) denial).allow false
  else if delimiter ∈ [';', '؛'] then
    (applySectionDenialUpdate unicode scan offset rest).allow false
  else scan.allow false

def coordinationUpdate (scan : LineScan) (leadingWhitespace : Nat) (front : List Char)
    (delimiter : Char) (rest : List Char) : LineScan :=
  if delimiter = '-' ∧ isSpacedAsciiHeadingHyphen front rest = false then scan.allow false
  else if delimiter ∈ ['-', '–', '—'] then
    let (candidate, headingOffset) := inlineHeadingPrefix front
    if delimiter = '-' ∧ '-' ∈ candidate then scan.allow false
    else
      match applyInlineHeadingCandidate unicode scan.framing candidate with
      | (next, true) => applyHeading unicode scan next (leadingWhitespace + headingOffset)
          (leadingWhitespace + byteLength front + delimiter.utf8Size) rest
      | (_, false) => coordinatedDenial unicode scan leadingWhitespace front delimiter rest
  else coordinatedDenial unicode scan leadingWhitespace front delimiter rest

def colonUpdate (scan : LineScan) (leadingWhitespace : Nat) (front : List Char)
    (delimiter : Char) (body : List Char) : LineScan :=
  let (candidate, headingOffset) := inlineHeadingPrefix front
  let bodyOffset := leadingWhitespace + byteLength front + delimiter.utf8Size
  match applyInlineHeadingCandidate unicode scan.framing candidate with
  | (next, true) =>
    applyHeading unicode scan next (leadingWhitespace + headingOffset) bodyOffset body
  | (_, false) =>
    if toAsciiLowercase (trim candidate) ∈ ["answer".toList, "response".toList] then
      (applySectionDenialUpdateWithAnswerContext unicode scan bodyOffset body
        scan.bareNoAnswerAllowed).allow false
    else scan.allow false

def isLineDelimiter (c : Char) : Bool :=
  isSourceInlineColon c || isSourceSentenceTerminal c || isSourceCoordinationDelimiter c ||
    c == '-'

/-- A delimiter of a line, with what is in front of it and what is behind it. -/
def delimiterUpdate (leadingWhitespace : Nat) (scan : LineScan)
    (found : List Char × Char × List Char) : LineScan :=
  let (front, delimiter, rest) := found
  if isSourceQuestionTerminal delimiter then
    questionUpdate unicode scan leadingWhitespace front delimiter rest
  else if isSourceSentenceTerminal delimiter then
    sentenceUpdate unicode scan leadingWhitespace front delimiter rest
  else if isSourceCoordinationDelimiter delimiter || delimiter == '-' then
    coordinationUpdate unicode scan leadingWhitespace front delimiter rest
  else colonUpdate unicode scan leadingWhitespace front delimiter rest

/-- A line whose delimiters turned nothing may be a heading as a whole. -/
def wholeLineUpdate (scan : LineScan) (leadingWhitespace : Nat) (line : List Char) : LineScan :=
  if scan.transitions = [] then
    match applyHeadingCandidate unicode scan.framing line with
    | (next, true) => scan.turn next none leadingWhitespace
    | (_, false) => scan
  else scan

/-- The start of a line may take a framing up again, or answer the question before it. -/
def lineStart (current : SourceFramingState) (leadingWhitespace : Nat) (line : List Char) :
    LineScan :=
  let allowed := current.pendingBareNoAnswer.any fun category => current.active = some category
  let scan : LineScan := ⟨current.active, current.suspended, [], none, false⟩
  applySectionDenialUpdateWithAnswerContext unicode
    (reintroduce unicode scan leadingWhitespace line) leadingWhitespace line allowed

def sourceFramingLineUpdate (current : SourceFramingState) (line : List Char) :
    SourceFramingLineUpdate :=
  let leadingWhitespace := byteLength line - byteLength (trimStart line)
  let trimmed := trim line
  let scan := wholeLineUpdate unicode
    ((occurrencesWhere isLineDelimiter trimmed).foldl (delimiterUpdate unicode leadingWhitespace)
      (lineStart unicode current leadingWhitespace trimmed)) leadingWhitespace trimmed
  ⟨⟨scan.framing, scan.suspended, scan.pendingBareNoAnswer⟩, scan.transitions⟩

def sourceFramingAfterLine (current : SourceFramingState) (line : List Char) :
    SourceFramingState :=
  (sourceFramingLineUpdate unicode current line).state

def sourceFramingAfterBlockState (normalizedBlock : List Char) (inherited : SourceFramingState) :
    SourceFramingState :=
  (lines normalizedBlock).foldl (sourceFramingAfterLine unicode) inherited

/-! ## Segments -/

/-- `block.match_indices(quote)`: the offsets of the occurrences, none overlapping another;
`covered` characters belong to the occurrence before. -/
def matchIndices (quote : List Char) (offset covered : Nat) : List Char → List Nat
  | [] => if covered = 0 ∧ quote = [] then [offset] else []
  | c :: rest =>
    if covered = 0 ∧ quote.isPrefixOf (c :: rest) = true then
      offset :: matchIndices quote (offset + c.utf8Size) (quote.length - 1) rest
    else matchIndices quote (offset + c.utf8Size) (covered - 1) rest

/-- The framing at the start of a segment of a line; none where it changes inside. -/
def framingInLine (active : Option SourceFraming) (lineStart segmentStart segmentEnd : Nat) :
    List Transition → Option (Option SourceFraming)
  | [] => some active
  | transition :: later =>
    let offset := lineStart + transition.offset
    if offset ≤ segmentStart then
      framingInLine transition.next lineStart segmentStart segmentEnd later
    else if offset < segmentEnd then none
    else framingInLine active lineStart segmentStart segmentEnd later

/-- The lines of a block up to the end of a segment. -/
def governingFraming (segmentStart segmentEnd : Nat) (framing : SourceFramingState)
    (governing : Option SourceFraming) (lineStart : Nat) : List (List Char) →
    Option SourceFraming
  | [] => governing
  | line :: later =>
    if segmentEnd ≤ lineStart then governing
    else
      let lineEnd := lineStart + byteLength line
      let update := sourceFramingLineUpdate unicode framing line
      if lineEnd ≤ segmentStart then
        governingFraming segmentStart segmentEnd update.state update.state.active lineEnd later
      else
        match framingInLine framing.active lineStart segmentStart segmentEnd
            update.transitions with
        | none => none
        | some atStart =>
          governingFraming segmentStart segmentEnd update.state
            (if lineStart ≤ segmentStart then atStart else governing) lineEnd later

def sourceFramingForSegmentWithState (normalizedBlock exactQuote : List Char)
    (inherited : SourceFramingState) : Option SourceFraming :=
  match matchIndices exactQuote 0 0 normalizedBlock with
  | [segmentStart] =>
    if (framingFromHeading unicode (trim exactQuote)).isSome then none
    else
      governingFraming unicode segmentStart (segmentStart + byteLength exactQuote) inherited
        inherited.active 0 (splitInclusive '\n' normalizedBlock)
  | _ => none

end Updates

end DocumentSummarizer.Coherent
