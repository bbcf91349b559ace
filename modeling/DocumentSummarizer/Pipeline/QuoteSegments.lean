import DocumentSummarizer.Pipeline.PageSelection
import DocumentSummarizer.Pipeline.SourceText

/-! # Quote segments

A block is offered for quoting in segments of a bounded length.  The versions
differ in where they cut: the sentence versions cut at safe sentence ends only
and count the source units that they cannot offer.
-/

namespace DocumentSummarizer.Pipeline

open Library

def maxAnalysisQuoteCharacters : Nat := 600

structure QuoteSegmentation where
  segments : List (List Char)
  omittedSourceUnits : Nat
  deriving DecidableEq, Repr

inductive SentenceBreak where
  | aTerm
  | sTerm
  | sContinue
  | other
  deriving DecidableEq, Repr

/-- The segmentation tables that the sentence readers take from Unicode. -/
structure SentenceTables where
  unicode : Unicode
  sentenceBreak : Char → SentenceBreak
  /-- Close or final punctuation. -/
  closing : Char → Bool
  /-- Open or initial punctuation. -/
  opening : Char → Bool
  /-- `split_sentence_bounds` -/
  sentences : List Char → List (List Char)
  /-- The sentences are the text, cut into pieces. -/
  sentences_flatten : ∀ text, (sentences text).flatten = text

/-- Cuts behind the space after a full stop and behind a line break. -/
def sentencesAfter : Char → List Char → List (List Char)
  | _, [] => []
  | before, c :: rest =>
    if (c == ' ' && before == '.') || c == '\n' then
      [c] :: sentencesAfter c rest
    else
      match sentencesAfter c rest with
      | [] => [[c]]
      | sentence :: later => (c :: sentence) :: later

theorem sentencesAfter_flatten (before : Char) (text : List Char) :
    (sentencesAfter before text).flatten = text := by
  induction text generalizing before with
  | nil => rfl
  | cons c rest ih =>
      have tail := ih c
      rw [sentencesAfter]
      split
      · rw [List.flatten_cons, tail]
        rfl
      · cases found : sentencesAfter c rest with
        | nil =>
            rw [found] at tail
            rw [← tail]
            rfl
        | cons sentence later =>
            rw [found] at tail
            rw [← tail]
            rfl

/-- The tables as they are on plain ASCII sentences. -/
def SentenceTables.ascii : SentenceTables where
  unicode := .ascii
  sentenceBreak c :=
    if c = '.' then .aTerm
    else if c ∈ ['!', '?'] then .sTerm
    else if c ∈ [',', '-', ':', ';'] then .sContinue
    else .other
  closing c := c ∈ [')', ']', '}']
  opening c := c ∈ ['(', '[', '{']
  sentences := sentencesAfter ' '
  sentences_flatten := sentencesAfter_flatten ' '

/-! ## Sentence ends -/

section Sentences

variable (tables : SentenceTables)

def isSentenceCloser (c : Char) : Bool :=
  c == '"' || c == '\'' || tables.closing c

def isTokenOpener (c : Char) : Bool :=
  c == '"' || c == '\'' || tables.opening c

def ambiguousAbbreviations : List (List Char) :=
  ["mr", "mrs", "ms", "dr", "prof", "sr", "jr", "st", "vs", "etc", "e.g", "i.e", "no", "fig",
    "sec", "art", "inc", "ltd", "co", "jan", "feb", "mar", "apr", "jun", "jul", "aug", "sep",
    "sept", "oct", "nov", "dec"].map String.toList

/-- Whether a token before a full stop is an abbreviation. -/
def isAbbreviation (token : List Char) (next : Option Char) (legacyShort : Bool) : Bool :=
  let lower := tables.unicode.toLowercase token
  let short := next.isSome && decide (2 ≤ token.length ∧ token.length ≤ 5) &&
    token.all tables.unicode.isAlphabetic
  token.any (tables.sentenceBreak · = .aTerm) ||
    (token.length == 1 && token.all tables.unicode.isAlphabetic) ||
    decide (lower ∈ ambiguousAbbreviations) || (legacyShort && short) ||
    (!legacyShort && lower == "dept".toList)

/-- `analysis_sentence_boundary`: whether the unit from `unitStart` may end at `proposedEnd`. -/
def sentenceBoundary (source : List Char) (unitStart proposedEnd sourceEnd : Nat)
    (legacyShort : Bool) : Option Bool := do
  let text ← byteSlice source unitStart proposedEnd
  let withoutClosers := (trimEnd text).rdropWhile (isSentenceCloser tables)
  match withoutClosers.getLast? with
  | none => some false
  | some terminal =>
    if tables.sentenceBreak terminal = .sTerm then
      some true
    else if tables.sentenceBreak terminal ≠ .aTerm then
      some false
    else
      let before := trimEnd withoutClosers.dropLast
      if before.getLast?.any (fun c => tables.sentenceBreak c = .aTerm ∨
          tables.sentenceBreak c = .sContinue) then
        some false
      else do
        let token := ((before.rtakeWhile (!isWhitespace ·)).dropWhile
          (isTokenOpener tables)).rdropWhile (isSentenceCloser tables)
        let rest ← byteSlice source proposedEnd sourceEnd
        let next := rest.find? (!isWhitespace ·)
        if isAbbreviation tables token next legacyShort then
          some false
        else
          some !(before.getLast?.any tables.unicode.isNumeric && next.any tables.unicode.isNumeric)

/-- The range from `start` to `finish` without the whitespace at its ends. -/
def trimmedUnit (source : List Char) (start finish : Nat) : Option (Nat × Nat) :=
  (byteSlice source start finish).map fun text =>
    (start + (byteLength text - byteLength (trimStart text)), start + byteLength (trimEnd text))

/-- Cuts at the safe ends among the proposed ones, after the units found so far. -/
def sentenceUnitsFrom (source : List Char) (sourceEnd : Nat) :
    List (Nat × Nat) → Nat → List Located → Option (List (Nat × Nat) × Nat)
  | units, unitStart, [] => some (units, unitStart)
  | units, unitStart, proposed :: rest => do
    let safe ← sentenceBoundary tables source unitStart proposed.finish sourceEnd true
    if safe then
      let unit ← trimmedUnit source unitStart proposed.finish
      sentenceUnitsFrom source sourceEnd
        (units ++ if unit.1 < unit.2 then [unit] else []) proposed.finish rest
    else
      sentenceUnitsFrom source sourceEnd units unitStart rest

/-- `analysis_sentence_units_v13` -/
def sentenceUnitsV13 (source : List Char) : Option (List (Nat × Nat) × Nat) := do
  let sourceStart := byteLength source - byteLength (trimStart source)
  let sourceEnd := byteLength (trimEnd source)
  if sourceEnd ≤ sourceStart then
    some ([], sourceEnd)
  else
    let text ← byteSlice source sourceStart sourceEnd
    sentenceUnitsFrom tables source sourceEnd [] sourceStart
      (located sourceStart (tables.sentences text))

/-! ## Packing -/

/-- A range of the source, and whether it is a whole sentence or form. -/
structure SourceUnit where
  start : Nat
  finish : Nat
  complete : Bool
  deriving DecidableEq, Repr

/-- The segment of what is packed. -/
def flush (source : List Char) : Option (Nat × Nat) → Option (List (List Char))
  | none => some []
  | some (start, finish) => (byteSlice source start finish).map ([·])

/-- Packs units into segments as long as they fit, and counts the units that cannot be offered. -/
def packUnits (source : List Char) : Option (Nat × Nat) → List SourceUnit →
    Option QuoteSegmentation
  | packed, [] => do
    let segments ← flush source packed
    return ⟨segments, 0⟩
  | packed, unit :: rest => do
    let text ← byteSlice source unit.start unit.finish
    if unit.complete = false ∨ maxAnalysisQuoteCharacters < text.length then
      let flushed ← flush source packed
      let later ← packUnits source none rest
      return ⟨flushed ++ later.segments, later.omittedSourceUnits + 1⟩
    else
      match packed with
      | none => packUnits source (some (unit.start, unit.finish)) rest
      | some previous => do
        let whole ← byteSlice source previous.1 unit.finish
        if whole.length ≤ maxAnalysisQuoteCharacters then
          packUnits source (some (previous.1, unit.finish)) rest
        else
          let flushed ← flush source packed
          let later ← packUnits source (some (unit.start, unit.finish)) rest
          return ⟨flushed ++ later.segments, later.omittedSourceUnits⟩

/-! ## Paragraphs and forms -/

/-- The trimmed ranges between blank lines, from `start` on. -/
def paragraphsFrom (source : List Char) : Nat → List Located → Option (List (Nat × Nat))
  | start, [] =>
    (trimmedUnit source start (byteLength source)).map fun unit =>
      if unit.1 < unit.2 then [unit] else []
  | start, line :: rest =>
    if blank line.text then do
      let unit ← trimmedUnit source start line.start
      let later ← paragraphsFrom source line.finish rest
      return (if unit.1 < unit.2 then [unit] else []) ++ later
    else
      paragraphsFrom source start rest

def paragraphs (source : List Char) : Option (List (Nat × Nat)) :=
  paragraphsFrom source 0 (locatedLines source)

def labelPunctuation : List Char :=
  ['-', '/', '(', ')', '\'', '’', '&', '#']

/-- The value of a label and value row. -/
def labelValue (line : List Char) : Option (List Char) := do
  let (label, value) ← splitOnceWhere (· == ':') (trim line)
  let words := (splitWhitespace label).length
  if 1 ≤ words ∧ words ≤ 8 ∧
      (label.find? tables.unicode.isAlphanumeric).any tables.unicode.isAlphabetic = true ∧
      label.all (fun c => tables.unicode.isAlphanumeric c || isWhitespace c ||
        c ∈ labelPunctuation) = true ∧
      blank value = false then
    some value
  else
    none

/-- The fields of a form, each with the start of its row and of its value; none when prose comes
before the first of them. -/
def formFields : List (Nat × Nat) → List Located → Option (List (Nat × Nat))
  | fields, [] => some fields
  | fields, line :: rest =>
    match labelValue tables line.text with
    | some value =>
      formFields (fields ++ [(line.start,
        line.start + byteLength (trimEnd line.text) - byteLength value)]) rest
    | none =>
      if fields = [] ∧ blank line.text = false ∧ endsWith [':'] (trimEnd line.text) = false then
        none
      else
        formFields fields rest

/-- Whether every value is whole sentences; none when one has more behind its first sentence. -/
def valuesAreSentences (text : List Char) : List (Nat × Nat) → Option (Option Bool)
  | [] => some (some true)
  | (_, valueStart) :: rest => do
    let value ← byteSlice text valueStart ((rest.head?.map (·.1)).getD (byteLength text))
    let (sentences, tail) ← sentenceUnitsV13 tables value
    let more ← match sentences with
      | [] => some false
      | (_, finish) :: _ =>
        (byteSlice value finish (byteLength value)).map fun after => !blank after
    if more then
      some none
    else
      let left ← byteSlice value tail (byteLength value)
      let later ← valuesAreSentences text rest
      some (later.map fun all => !sentences.isEmpty && blank left && all)

def formFieldCount (text : List Char) : Option Nat :=
  match formFields tables [] (locatedLines text) with
  | none => some 0
  | some fields =>
    if text.length ≤ maxAnalysisQuoteCharacters then
      some fields.length
    else do
      let all ← valuesAreSentences tables text fields
      match all with
      | none => some 0
      | some all => some (if fields ≠ [] ∧ all = true then 0 else fields.length)

def formGroup (text : List Char) : Option Bool :=
  (formFieldCount tables text).map (0 < ·)

def leadInEnds : List Char :=
  [':', ';', ',', '-']

/-- A text that what follows belongs to. -/
def leadIn (text : List Char) : Option Bool :=
  if endsWith leadInEnds text then
    some true
  else do
    let form ← formGroup tables text
    if form then
      some false
    else
      let ended ← sentenceBoundary tables text 0 (byteLength text) (byteLength text) false
      some !ended

def qualifiers : List (List Char) :=
  ["unless ", "except ", "provided ", "subject to ", "however,", "only if ", "on condition ",
    "notwithstanding "].map String.toList

/-- A text that qualifies what stands before it. -/
def qualification (text : List Char) : Bool :=
  let text := tables.unicode.toLowercase
    (text.dropWhile fun c => isWhitespace c || c == '(' || c == '[')
  qualifiers.any (·.isPrefixOf text)

/-! ## The segmentation -/

/-- Joins each paragraph to the group before it when it continues that group. -/
def groupParagraphs (source : List Char) :
    Nat × Nat → List (Nat × Nat) → Option (List (Nat × Nat))
  | previous, [] => some [previous]
  | previous, (start, finish) :: rest => do
    let before ← byteSlice source previous.1 previous.2
    let next ← byteSlice source start finish
    let form ← formGroup tables next
    let boundedForm := form && !endsWith leadInEnds before &&
      decide (next.length ≤ maxAnalysisQuoteCharacters)
    let leads ← leadIn tables before
    if (leads && !boundedForm) || qualification tables next then
      groupParagraphs source (previous.1, finish) rest
    else do
      let later ← groupParagraphs source (start, finish) rest
      return previous :: later

/-- The bounded units of the frozen policy. -/
def retainedProseRanges (source : List Char) : Option (List (Nat × Nat)) := do
  let (units, _) ← sentenceUnitsV13 tables source
  let texts ← units.mapM fun unit => byteSlice source unit.1 unit.2
  return ((units.zip texts).filter (·.2.length ≤ maxAnalysisQuoteCharacters)).map (·.1)

/-- The units with one more, which the last takes in when it qualifies that one. -/
def addUnit (source : List Char) (units : List SourceUnit) (unit : SourceUnit) :
    Option (List SourceUnit) := do
  let text ← byteSlice source unit.start unit.finish
  match units.getLast? with
  | some last =>
    if qualification tables text then
      return units.dropLast ++ [⟨last.start, unit.finish, last.complete && unit.complete⟩]
    else
      return units ++ [unit]
  | none => return [unit]

/-- Cuts a group at its sentence ends, but not inside a retained range. -/
def groupUnitsFrom (source text : List Char) (group : Nat × Nat) (retained : List (Nat × Nat)) :
    List SourceUnit → Nat → List Located → Option (List SourceUnit × Nat)
  | units, start, [] => some (units, start)
  | units, start, sentence :: rest => do
    let finish := group.1 + sentence.finish
    let front ← byteSlice text 0 sentence.finish
    let relativeEnd := byteLength (trimEnd front)
    let ends ← sentenceBoundary tables source start finish group.2 false
    if ends = false ∨
        retained.any (fun range => range.1 < relativeEnd && relativeEnd < range.2) = true then
      groupUnitsFrom source text group retained units start rest
    else
      let unit ← trimmedUnit source start finish
      let units ← addUnit tables source units ⟨unit.1, unit.2, true⟩
      groupUnitsFrom source text group retained units finish rest

/-- The units of a group: itself when it is whole, else its sentences and what is left. -/
def groupUnits (source : List Char) (group : Nat × Nat) : Option (List SourceUnit) := do
  let text ← byteSlice source group.1 group.2
  let fields ← formFieldCount tables text
  let whole ←
    if 1 < fields then some true
    else if maxAnalysisQuoteCharacters < text.length then some false
    else if 0 < fields then some true
    else sentenceBoundary tables source group.1 group.2 group.2 false
  if whole then
    return [⟨group.1, group.2, true⟩]
  else
    let retained ← retainedProseRanges tables text
    let (units, start) ← groupUnitsFrom tables source text group retained [] group.1
      (located 0 (tables.sentences text))
    let left ← byteSlice source start group.2
    if blank left then
      return units
    else
      let tail ← trimmedUnit source start group.2
      addUnit tables source units ⟨tail.1, tail.2, false⟩

/-- `quote_segments::segment` -/
def segment (source : List Char) : Option QuoteSegmentation :=
  let trimmed := trim source
  if trimmed.length ≤ maxAnalysisQuoteCharacters then
    some ⟨if trimmed = [] then [] else [trimmed], 0⟩
  else do
    let ranges ← paragraphs source
    let groups ← match ranges with
      | [] => some []
      | first :: rest => groupParagraphs tables source first rest
    let units ← groups.mapM (groupUnits tables source)
    packUnits source none units.flatten

/-! ## Earlier versions -/

/-- `analysis_quote_segments_v13` -/
def quoteSegmentsV13 (source : List Char) : Option QuoteSegmentation := do
  let sourceStart := byteLength source - byteLength (trimStart source)
  let sourceEnd := byteLength (trimEnd source)
  if sourceEnd ≤ sourceStart then
    some ⟨[], 0⟩
  else
    let completeBlock ← byteSlice source sourceStart sourceEnd
    if completeBlock.length ≤ maxAnalysisQuoteCharacters then
      some ⟨[completeBlock], 0⟩
    else
      let (units, unitStart) ← sentenceUnitsV13 tables source
      let packed ← packUnits source none (units.map fun unit => ⟨unit.1, unit.2, true⟩)
      let left ← byteSlice source unitStart sourceEnd
      return { packed with
        omittedSourceUnits := packed.omittedSourceUnits + if blank left then 0 else 1 }

end Sentences

/-- The last place to cut in the second half of a bounded text, after `index` characters. -/
def preferredQuoteBoundary : Nat → Nat → Option Nat → List Char → Option Nat
  | _, _, preferred, [] => preferred
  | index, offset, preferred, c :: rest =>
    preferredQuoteBoundary (index + 1) (offset + c.utf8Size)
      (if index + 1 < maxAnalysisQuoteCharacters / 2 then preferred
      else if c ∈ ['.', '?', '!', ';'] then some (offset + c.utf8Size)
      else if isWhitespace c then some offset
      else preferred) rest

/-- The loop of `analysis_quote_segments_v12` over what remains; every cut shortens it. -/
def quoteSegmentsV12From : Nat → List Char → Option (List (List Char))
  | 0, _ => some []
  | fuel + 1, source =>
    let remaining := trimStart source
    if remaining = [] then
      some []
    else
      let bounded := remaining.take maxAnalysisQuoteCharacters
      let hardEnd := byteLength bounded
      let splitEnd :=
        if remaining.length ≤ maxAnalysisQuoteCharacters then hardEnd
        else ((preferredQuoteBoundary 0 0 none bounded).filter (0 < ·)).getD hardEnd
      (byteSlice remaining 0 splitEnd).bind fun text =>
        (byteSlice remaining splitEnd (byteLength remaining)).bind fun rest =>
          (quoteSegmentsV12From fuel rest).map fun later =>
            (if trim text = [] then [] else [trim text]) ++ later

/-- `analysis_quote_segments_v12` -/
def quoteSegmentsV12 (source : List Char) : Option (List (List Char)) :=
  quoteSegmentsV12From source.length (trim source)

/-- `analysis_quote_segmentation_for_version` -/
def quoteSegmentationForVersion (tables : SentenceTables) (version : String)
    (source : List Char) : Option QuoteSegmentation :=
  if version = analysisVersion then
    segment tables source
  else if version = sentenceAnalysisVersion then
    quoteSegmentsV13 tables source
  else
    (quoteSegmentsV12 source).map fun segments => ⟨segments, 0⟩

end DocumentSummarizer.Pipeline
