import DocumentSummarizer.Pipeline.SourceText

/-! # Reading the lines of a contract

Each line is read once for what it may open: a decimal clause, an article, a
title, a table of contents.  What it does open depends on its neighbours.
-/

namespace DocumentSummarizer.Pipeline

open Library

inductive HeadingGrammar where
  | original
  | sectionAndSplitArticle
  deriving DecidableEq, Repr

/-- `text.strip_suffix([..]).unwrap_or(text)` -/
def withoutEnd (kinds : List Char) (text : List Char) : List Char :=
  (stripEndWhere (· ∈ kinds) text).getD text

def decimalMarker (marker : List Char) : Option (List (List Char)) :=
  let marker := withoutEnd ['.', ')'] (trim marker)
  let parts := splitWhere (· == '.') marker
  if parts.any (fun part => part.isEmpty || !part.all Char.isDigit) then none else some parts

def contractMarker (marker : List Char) : Option (List (List Char)) :=
  (decimalMarker marker).filter (·.all (byteLength · ≤ 3))

def isSectionWord (word : List Char) : Bool :=
  word = "Section".toList || word = "SECTION".toList

def decimalLine (line : List Char) (grammar : HeadingGrammar) :
    Option (List (List Char) × List Char) := do
  let line := trim line
  let line :=
    if grammar = .sectionAndSplitArticle then
      match splitOnceWhere isWhitespace line with
      | some (word, rest) => if isSectionWord word then trimStart rest else line
      | none => line
    else
      line
  let line := trimStart ((stripStart ['§'] (trim line)).getD (trim line))
  let (marker, rest) ← splitOnceWhere isWhitespace line
  return (← decimalMarker marker, trim rest)

/-- `contract_title` after the characters in `front`, the last one first. -/
def contractTitleFrom : List Char → List Char → List Char × Bool
  | front, [] => (trim front.reverse, false)
  | front, c :: after =>
    if (c = '.' ∨ c = ':') ∧ after.head?.all isWhitespace = true then
      (trim front.reverse, !blank after)
    else
      contractTitleFrom (c :: front) after

/-- The title in front of the first stop, and whether a body follows it. -/
def contractTitle (text : List Char) : List Char × Bool :=
  contractTitleFrom [] text

section Reading

variable (unicode : Unicode)

/-- The letters of the text are all uppercase. -/
def allUppercase (text : List Char) : Bool :=
  (text.filter unicode.isAlphabetic).all unicode.isUppercase

def connectors : List (List Char) :=
  ["and", "or", "of", "the", "to", "for", "in", "with", "a", "an"].map String.toList

def titleWord (word : List Char) : Bool :=
  decide (word ∈ connectors) || word.all unicode.isUppercase ||
    match word with
    | [] => false
    | c :: rest => unicode.isUppercase c && rest.all unicode.isLowercase

def leadingTitle (text : List Char) : Bool :=
  let text := withoutEnd ['.', ':'] (trim text)
  let words := (splitWhere (!unicode.isAlphabetic ·) text).filter (!·.isEmpty)
  !text.isEmpty &&
    text.all (fun c => unicode.isAlphabetic c || isWhitespace c || c ∈ ['&', '/', '-', '\'']) &&
    words.any (·.head?.any unicode.isUppercase) && words.all (titleWord unicode)

/-! ## Ordinals -/

def romanValues : List (Nat × List Char) :=
  [(1000, "M"), (900, "CM"), (500, "D"), (400, "CD"), (100, "C"), (90, "XC"), (50, "L"),
    (40, "XL"), (10, "X"), (9, "IX"), (5, "V"), (4, "IV"), (1, "I")].map fun entry =>
      (entry.1, entry.2.toList)

/-- Takes a token off the front as often as it is there; every time shortens the text. -/
def takeRoman (value : Nat) (token : List Char) :
    Nat → List Char → Nat → Option (List Char × Nat)
  | 0, tail, n => some (tail, n)
  | fuel + 1, tail, n =>
    match stripStart token tail with
    | none => some (tail, n)
    | some after =>
      if 3999 < n + value then none else takeRoman value token fuel after (n + value)

def readRoman : List (Nat × List Char) → List Char → Nat → Option (List Char × Nat)
  | [], tail, n => some (tail, n)
  | (value, token) :: later, tail, n => do
    let (tail, n) ← takeRoman value token tail.length tail n
    readRoman later tail n

/-- The canonical spelling. -/
def toRoman : List (Nat × List Char) → Nat → List Char
  | [], _ => []
  | (value, token) :: later, remaining =>
    (List.replicate (remaining / value) token).flatten ++ toRoman later (remaining % value)

def articleOrdinal (ordinal : List Char) : Option Nat :=
  if byteLength ordinal ≤ 3 ∧ ordinal.all Char.isDigit = true then
    (parseU32 ordinal).filter (0 < ·)
  else do
    let (tail, n) ← readRoman romanValues ordinal 0
    if tail ≠ [] ∨ n = 0 ∨ toRoman romanValues n ≠ ordinal then none else some n

def endsOrdinal (c : Char) : Bool :=
  isWhitespace c || c ∈ ['-', '–', '—', ':']

def articleOrdinalPrefix (text : List Char) : Option (Nat × List Char) := do
  let number ← articleOrdinal (text.takeWhile (!endsOrdinal ·))
  return (number, text.dropWhile (!endsOrdinal ·))

def articleTitle (text : List Char) : Option (Nat × List Char) := do
  let (kind, rest) ← splitOnceWhere isWhitespace (trim text)
  if kind.map Char.toLower ≠ "article".toList then
    none
  else
    let (number, rest) ← articleOrdinalPrefix (trim rest)
    let rest := trimStart rest
    let separator ← rest.head?
    let title ←
      if separator ∈ ['-', '–', '—', ':'] then
        some (trim rest.tail)
      else if kind ≠ "ARTICLE".toList ∨ rest.any unicode.isAlphabetic = false ∨
          allUppercase unicode rest = false then
        none
      else
        some rest
    if title = [] then none else some (number, trimEnd (withoutEnd ['.', ':'] title))

def bareRomanTitle (text : List Char) (number : Option Nat) : Option (Nat × List Char) := do
  let (ordinal, title) ← splitOnceText ". ".toList text
  let title := trim title
  if ordinal.all (· ∈ "IVXLCDM".toList) = false ∨ title.any unicode.isAlphabetic = false ∨
      allUppercase unicode title = false then
    none
  else
    let number ← number
    some (number, trimEnd (withoutEnd ['.', ':'] title))

/-! ## One line -/

inductive LineKind where
  | heading
  | headingLike
  | text
  deriving DecidableEq, Repr

structure ReadLine where
  decimal : Option (List (List Char) × List Char)
  numbered : Bool
  explicitSection : Bool
  sectionMarked : Bool
  romanDecimal : Bool
  article : Option (Nat × List Char)
  articleMarker : Option Nat
  articleLines : Nat
  roman : Option (Nat × List Char)
  title : Bool
  genericHeadingLike : Bool
  openingCover : Bool
  endsUnit : Bool
  startsUnit : Bool
  kind : LineKind
  toc : Bool
  tocEntry : Bool
  deriving DecidableEq, Repr

def structuralMarkers : List (List Char) :=
  ["ARTICLE", "SECTION", "EXHIBIT", "APPENDIX", "SCHEDULE", "ATTACHMENT", "ANNEX"].map
    String.toList

def coverMarkers : List (List Char) :=
  ["EXHIBIT", "APPENDIX", "SCHEDULE", "ATTACHMENT", "ANNEX"].map String.toList

def asciiUppercase (text : List Char) : List Char :=
  text.map Char.toUpper

namespace ReadLine

/-- `ReadLine::read` -/
def read (text : List Char) (grammar : HeadingGrammar) : ReadLine :=
  let decimal := decimalLine text grammar
  let numbered := decimal.any fun (parts, rest) =>
    parts.all (byteLength · ≤ 3) && rest.head?.any unicode.isUppercase
  let article := articleTitle unicode text
  let words := splitWhitespace text
  let recognition := joined [' '] words
  let toc := decide (asciiUppercase recognition = "TABLE OF CONTENTS".toList)
  let (marker, remainder) := (splitOnceWhere (· == ' ') recognition).getD (recognition, [])
  let plausibleHeading := remainder.isEmpty || leadingTitle unicode remainder ||
    (!endsWith ['.', ';', '?', '!'] recognition && allUppercase unicode remainder)
  let ordinal := marker.rdropWhile (fun c => c == '.' || c == ')')
  let romanNumber := (articleOrdinalPrefix (asciiUppercase ordinal)).map (·.1)
  let splitArticle := grammar = .sectionAndSplitArticle
  let articleMarker := match words with
    | [kind, number] =>
      if splitArticle ∧ kind = "ARTICLE".toList then articleOrdinal number else none
    | _ => none
  let roman := romanNumber.isSome && (endsWith ['.', ')'] marker || !remainder.isEmpty) &&
    plausibleHeading
  let letter := endsWith ['.', ')'] marker && byteLength ordinal == 1 &&
    ordinal.all unicode.isAlphabetic && !remainder.isEmpty && plausibleHeading
  let structuralMarker := decide (asciiUppercase marker ∈ structuralMarkers) && plausibleHeading
  let tocWords := match decimal with
    | some (_, rest) => splitWhitespace rest
    | none => words
  let tocEntry := containsText "...".toList recognition ||
    (numbered && decide (1 < tocWords.length) && tocWords.getLast?.any (·.all Char.isDigit) &&
      leadingTitle unicode (joined [' '] tocWords.dropLast))
  let explicit := splitArticle ∧ words.head?.any isSectionWord = true
  let signed := (trimStart text).head? = some '§'
  { decimal := decimal
    numbered := numbered
    explicitSection := explicit
    sectionMarked := explicit ∨ (splitArticle ∧ signed)
    romanDecimal := ¬ signed
    article := article
    articleMarker := articleMarker
    articleLines := 1
    roman := bareRomanTitle unicode text romanNumber
    title := leadingTitle unicode text
    genericHeadingLike := decide (words.length ≤ 8) &&
      !endsWith ['.', ':', ';', '?', '!', ')'] recognition &&
      recognition.any unicode.isAlphabetic && allUppercase unicode recognition
    openingCover := decide (asciiUppercase marker ∈ coverMarkers)
    endsUnit := endsWith ['.', ':', ';', '?', '!', ')'] (trimEnd text) ||
      (contractMarker ((stripStart ['§'] (trim text)).getD (trim text))).isSome ||
      article.isSome ||
      (numbered && decimal.any fun (_, rest) =>
        !(contractTitle rest).2 && leadingTitle unicode (contractTitle rest).1)
    startsUnit := false
    kind :=
      if toc || tocEntry then .headingLike
      else if article.isSome || numbered then .heading
      else if roman || letter || structuralMarker then .headingLike
      else .text
    toc := toc
    tocEntry := tocEntry }

/-- `number` -/
def number (line : ReadLine) : Option (List (List Char) × List Char) :=
  if line.numbered then line.decimal else none

end ReadLine

end Reading

/-! ## Neighbours -/

/-- A visible retained line: where it is in its block, its page and its text. -/
structure SourceLine where
  blockId : String
  start : Nat
  finish : Nat
  page : Nat
  text : List Char
  deriving DecidableEq, Repr

section Passes

variable (unicode : Unicode)

/-- Resolves the two-line articles, from the given line on. -/
def splitArticles : SourceLine × ReadLine → List (SourceLine × ReadLine) →
    List (SourceLine × ReadLine)
  | current, [] => [current]
  | (line, read), (nextLine, next) :: rest =>
    match read.articleMarker with
    | some ordinal =>
      if next.kind = .text ∧ next.title = true ∧ allUppercase unicode nextLine.text = true ∧
          line.page = nextLine.page then
        (line, { read with
          article := some (ordinal,
            nextLine.text.rdropWhile fun c => c == '.' || c == ':')
          articleLines := 2
          kind := .heading
          endsUnit := true }) ::
        splitArticles (nextLine, { next with kind := .heading, endsUnit := true }) rest
      else
        (line, read) :: splitArticles (nextLine, next) rest
    | none => (line, read) :: splitArticles (nextLine, next) rest

def resolveArticles : List (SourceLine × ReadLine) → List (SourceLine × ReadLine)
  | [] => []
  | first :: rest => splitArticles unicode first rest

/-- Whether the next line is numbered under this Roman heading. -/
def opensDecimals (number : Nat) (next : ReadLine) : Bool :=
  next.romanDecimal && next.decimal.any fun (parts, _) =>
    decide (parts.head?.bind parseU32 = some number)

/-- Admits the Roman headings that continue the last one or open its decimals. -/
def admitRomans : Option Nat → List (SourceLine × ReadLine) → List (SourceLine × ReadLine)
  | _, [] => []
  | lastRoman, (line, read) :: rest =>
    if read.article.isNone then
      let roman := read.roman.filter fun (number, _) =>
        lastRoman.any (number == · + 1) || rest.head?.any (opensDecimals number ·.2)
      (line, { read with
        roman := roman
        kind := if roman.isSome ∧ read.tocEntry = false then .heading else read.kind }) ::
      admitRomans (roman.elim lastRoman fun entry => some entry.1) rest
    else
      (line, read) :: admitRomans lastRoman rest

/-- Decides the kind of each line from the unit before it and the line after it. -/
def admitHeadings : Bool → Bool → List (SourceLine × ReadLine) → List (SourceLine × ReadLine)
  | _, _, [] => []
  | startsUnit, inOpening, (line, read) :: rest =>
    let read : ReadLine := { read with startsUnit := startsUnit }
    if startsUnit = false ∧
        ((read.explicitSection = true ∧ read.numbered = true) ∨ read.articleLines = 2) then
      -- a new form needs a complete unit before it
      if read.explicitSection = true ∧ read.decimal.any (fun (_, rest) =>
          !leadingTitle unicode (contractTitle rest).1) = true then
        (line, { read with numbered := false, kind := .text }) ::
          admitHeadings read.endsUnit inOpening rest
      else
        (line, { read with kind := .headingLike }) :: admitHeadings read.endsUnit false rest
    else
      let leadingAdmitted : Bool := read.title && startsUnit && rest.head?.any (·.2.numbered)
      if read.kind = .heading ∨ leadingAdmitted = true then
        let endsUnit := read.endsUnit || leadingAdmitted || read.roman.isSome
        (line, { read with
          kind := if read.kind = .headingLike then .headingLike else .heading
          endsUnit := endsUnit }) ::
        admitHeadings endsUnit false rest
      else if read.numbered then
        (line, read) :: admitHeadings read.endsUnit false rest
      else if (read.kind = .headingLike ∧ read.toc = false ∧ read.tocEntry = false ∧
          startsUnit = false) ∨ (inOpening = true ∧ read.openingCover = true) then
        (line, { read with kind := .text }) :: admitHeadings read.endsUnit inOpening rest
      else if read.kind = .text ∧ read.genericHeadingLike = true ∧ startsUnit = true ∧
          inOpening = false then
        (line, { read with kind := .headingLike }) :: admitHeadings read.endsUnit inOpening rest
      else
        (line, read) :: admitHeadings read.endsUnit inOpening rest

/-- The lines of a document with what they open. -/
def readLines (grammar : HeadingGrammar) (lines : List SourceLine) :
    List (SourceLine × ReadLine) :=
  admitHeadings unicode true true (admitRomans none (resolveArticles unicode
    (lines.map fun line => (line, ReadLine.read unicode line.text grammar))))

end Passes

end DocumentSummarizer.Pipeline
