import DocumentSummarizer.Coherent.ResponseUnits
import DocumentSummarizer.Pipeline.SourceText

/-! # Framing headings

The headings of a source that frame what follows them as problems, risks, warnings,
exceptions or limitations, and the headings and questions that end such a framing.
-/

namespace DocumentSummarizer.Coherent

open Library Pipeline

/-! ## Words -/

/-- `matches!` of a word against literals. -/
def isOneOf (names : List String) (word : List Char) : Bool :=
  names.any fun name => name.toList == word

/-- `str::to_ascii_lowercase` -/
def toAsciiLowercase (word : List Char) : List Char :=
  word.map Char.toLower

/-- `text.trim_end_matches(..)` -/
def trimEndMatches (kinds : List Char) (text : List Char) : List Char :=
  text.rdropWhile (· ∈ kinds)

def isSourceSentenceTerminal (c : Char) : Bool :=
  c ∈ ['.', '!', '?', '。', '！', '？', '؟', '۔', '։', '।']

def isSourceQuestionTerminal (c : Char) : Bool :=
  c ∈ ['?', '？', '؟']

def isSourceInlineColon (c : Char) : Bool :=
  c ∈ [':', '：']

def isSourceCoordinationDelimiter (c : Char) : Bool :=
  c ∈ [',', '،', '，', ';', '؛', '–', '—']

section Unicode

variable (unicode : Unicode)

/-- The nonempty pieces of a text between characters that are neither letters nor digits. -/
def alphanumericWords (text : List Char) : List (List Char) :=
  (splitWhere (!unicode.isAlphanumeric ·) text).filter (!·.isEmpty)

def asciiWords (text : List Char) : List (List Char) :=
  (alphanumericWords unicode text).map toAsciiLowercase

/-- The first letter of a text is in upper case. -/
def startsUppercase (text : List Char) : Bool :=
  (text.find? unicode.isAlphabetic).any unicode.isUppercase

end Unicode

/-! ## Framing terms -/

def isSourceFramingModifier (word : List Char) : Bool :=
  isOneOf ["common", "important", "key", "known", "major", "material", "safety", "significant"]
    word

def sourceFramingFromNoun (word : List Char) : Option SourceFraming :=
  if isOneOf ["problem", "problems", "issue", "issues"] word then some .problem
  else if isOneOf ["risk", "risks", "hazard", "hazards"] word then some .risk
  else if isOneOf ["warning", "warnings", "caution", "cautions"] word then some .warning
  else if isOneOf ["exception", "exceptions"] word then some .exception
  else if isOneOf ["limitation", "limitations"] word then some .limitation
  else none

/-- The term that words start with, and how many words it has. -/
def sourceFramingTermAt (words : List (List Char)) : Option (SourceFraming × Nat) :=
  match words with
  | [] => none
  | word :: rest =>
    if word == "risk".toList && rest.head?.any (isOneOf ["factor", "factors"]) then
      some (.risk, 2)
    else if word == "warning".toList && rest.head?.any (isOneOf ["sign", "signs"]) then
      some (.warning, 2)
    else if word == "problem".toList && rest.head?.any (isOneOf ["area", "areas"]) then
      some (.problem, 2)
    else (sourceFramingFromNoun word).map fun framing => (framing, 1)

def headingNegatesFraming : List (List Char) → Bool
  | [] => false
  | word :: rest =>
    isOneOf ["free", "neither", "no", "not", "without"] word ||
      word == "non".toList && !rest.head?.any isSourceFramingModifier ||
      headingNegatesFraming rest

def hasOnlySourceFramingModifiers : List (List Char) → Bool
  | [] => true
  | word :: rest =>
    (isSourceFramingModifier word ||
        word == "non".toList && rest.head?.any isSourceFramingModifier) &&
      hasOnlySourceFramingModifiers rest

def headingHasOnlyFramingModifiers (words : List (List Char)) : Bool :=
  hasOnlySourceFramingModifiers words.dropLast

/-- The framing of a term of `length` words that the words end with. -/
def finalTerm (length : Nat) (words : List (List Char)) : Option SourceFraming :=
  if words.length < length then none
  else
    ((sourceFramingTermAt (words.drop (words.length - length))).filter (·.2 = length)).map (·.1)

def sourceFramingFromCompoundHeading (words : List (List Char)) : Option SourceFraming :=
  if hasOnlySourceFramingModifiers (words.take (words.length - 2)) then finalTerm 2 words else none

def sourceFramingTermStart (words : List (List Char)) : Option Nat :=
  [1, 2].findSome? fun length => (finalTerm length words).map fun _ => words.length - length

def endsWithSourceFramingTerm (words : List (List Char)) : Bool :=
  (sourceFramingTermStart words).isSome

def sourceFramingHeadingConjunct (words : List (List Char)) : Bool :=
  (sourceFramingTermStart words).any fun nounStart =>
    hasOnlySourceFramingModifiers (words.take nounStart)

def negatedSourceFramingHeading (words : List (List Char)) : Bool :=
  headingNegatesFraming words &&
    match words with
    | [] => false
    | negation :: conjuncts =>
      isOneOf ["neither", "no", "non", "not", "without"] negation &&
        (splitWhere (isOneOf ["nor", "or"]) conjuncts).all sourceFramingHeadingConjunct

/-! ## Headings -/

/-- The title behind the number, the letter or the roman numeral of a heading. -/
def markedHeadingTitle (heading : List Char) : Option (List Char) :=
  let rawMarker := heading.takeWhile (!isWhitespace ·)
  let behind := heading.dropWhile (!isWhitespace ·)
  let strippedMarker :=
    ((stripStart ['('] rawMarker).bind (stripEndWhere (· == ')')) |>.or
      (stripEndWhere (· == '.') rawMarker) |>.or
      (stripEndWhere (· == ')') rawMarker) |>.or
      (stripEndWhere (· == ':') rawMarker))
  let marker := strippedMarker.getD rawMarker
  let title := trim behind
  if behind = [] ∨ marker = [] ∨ endsWith ['.', ')', ':'] marker = true then none
  else
    let decimal := (splitWhere (· == '.') marker).all fun part =>
      (parseU32 part).any fun component => 1 ≤ component && component ≤ 999
    let alphabetic := strippedMarker.isSome && marker.length == 1 && marker.all Char.isAlpha
    let roman := strippedMarker.isSome && 2 ≤ marker.length && marker.length ≤ 8 &&
      marker.all fun c => c.toUpper ∈ ['I', 'V', 'X', 'L', 'C', 'D', 'M']
    if title ≠ [] ∧ (decimal || alphabetic || roman) = true then some title else none

def headingEndsWithDeclarativeTerminal (heading : List Char) : Bool :=
  (trimEndMatches ['"', '\'', ')', ']', '\x7d', '’', '”'] (trimEnd heading)).getLast?.any
    fun terminal => !isSourceQuestionTerminal terminal &&
      (isSourceSentenceTerminal terminal || terminal ∈ [';', '؛'])

section Headings

variable (unicode : Unicode)

def framingFromHeadingCandidate (heading : List Char) (hasExplicitInlineSignal : Bool) :
    Option SourceFraming :=
  let heading := trim heading
  let marked := markedHeadingTitle heading
  let title := marked.getD heading
  let words := (alphanumericWords unicode title).map unicode.toLowercase
  if heading = [] ∨ '\n' ∈ heading ∨ heading.any isSourceQuestionTerminal = true ∨
      80 < heading.length then none
  else if hasExplicitInlineSignal = false ∧ marked = none ∧
      headingEndsWithDeclarativeTerminal heading = true then none
  else if hasExplicitInlineSignal = false ∧ marked = none ∧
      startsUppercase unicode title = false then none
  else if words = [] ∨ 8 < words.length ∨ headingNegatesFraming words = true then none
  else
    (sourceFramingFromCompoundHeading words).or
      (if headingHasOnlyFramingModifiers words then words.getLast?.bind sourceFramingFromNoun
        else none)

def framingFromHeading (heading : List Char) : Option SourceFraming :=
  framingFromHeadingCandidate unicode heading false

def framingFromInlineHeading (heading : List Char) : Option SourceFraming :=
  framingFromHeadingCandidate unicode heading true

def mitigationControlSectionHeading (words : List (List Char)) : Bool :=
  isOneOf ["control", "control measure", "control measures", "control plan", "control plans",
      "control strategies", "control strategy", "controls", "mitigation",
      "mitigation and controls", "mitigation measure", "mitigation measures", "mitigation plan",
      "mitigation plans", "mitigation strategies", "mitigation strategy", "mitigations",
      "mitigations and controls", "risk mitigation", "risk mitigation measure",
      "risk mitigation measures", "risk mitigation plan", "risk mitigation plans",
      "risk mitigation strategies", "risk mitigation strategy", "risk mitigations"]
    (joined [' '] (words.map toAsciiLowercase))

/-- Every word but a connector behind the first starts in upper case. -/
def titleCase : List (List Char) → Bool
  | [] => true
  | first :: rest =>
    startsUppercase unicode first && rest.all fun word =>
      isOneOf ["a", "an", "and", "for", "in", "of", "on", "or", "the", "to", "with"]
        (toAsciiLowercase word) || startsUppercase unicode word

/-- The first words of sections that need no title case. -/
def sectionLeads : List String :=
  ["about", "advantage", "advantages", "appendix", "background", "benefit", "benefits",
    "conclusion", "conclusions", "definitions", "introduction", "next", "overview",
    "recommendation", "recommendations", "references", "remedies", "remedy", "resources",
    "scope", "solution", "solutions", "summary"]

def possibleFramingBoundary (text : List Char) : Bool :=
  let heading := trim text
  let markedTitle := markedHeadingTitle heading
  let title := trimEndMatches ['.', '?', '!', ';', ':'] (markedTitle.getD heading)
  let words := alphanumericWords unicode title
  let normalizedWords := words.map toAsciiLowercase
  let lead := normalizedWords.headD []
  let letters := title.filter unicode.isAlphabetic
  let nonaffirmative := !heading.any isSourceQuestionTerminal &&
    endsWithSourceFramingTerm normalizedWords &&
    (negatedSourceFramingHeading normalizedWords ||
      normalizedWords.any (isOneOf ["possible", "potential"]))
  if heading = [] ∨ '\n' ∈ heading ∨ 80 < heading.length then false
  else if words = [] ∨ 8 < words.length ∨ letters = [] then false
  else
    (!headingEndsWithDeclarativeTerminal heading ||
        markedTitle.isSome && (isOneOf sectionLeads lead ||
          mitigationControlSectionHeading words || nonaffirmative)) &&
      (startsUppercase unicode title || markedTitle.isSome) &&
      (letters.all unicode.isUppercase || titleCase unicode words ||
        isOneOf (["how", "what", "when", "where", "who", "why"] ++ sectionLeads) lead ||
        nonaffirmative || mitigationControlSectionHeading words)

def isIntroductoryColonLabel (text : List Char) : Bool :=
  isOneOf ["example", "examples include", "important note", "note", "supporting example"]
    (joined [' '] (asciiWords unicode (trimEndMatches [':'] (trim text))))

/-- The framing behind a line that may be a heading, and whether it is one. -/
def applyHeadingCandidate (current : Option SourceFraming) (candidate : List Char) :
    Option SourceFraming × Bool :=
  match framingFromHeading unicode candidate with
  | some next => (some next, true)
  | none =>
    if endsWith [':'] (trim candidate) then
      if !isIntroductoryColonLabel unicode candidate &&
          possibleFramingBoundary unicode candidate then (none, true)
      else (current, false)
    else if possibleFramingBoundary unicode candidate then (none, true)
    else (current, false)

/-! ## Headings inside a line -/

def isHeadingBreak (c : Char) : Bool :=
  isSourceSentenceTerminal c || c ∈ [';', ':', '：']

/-- What may be a heading before a delimiter, and the offset where it starts. -/
def inlineHeadingPrefix (beforeColon : List Char) : List Char × Nat :=
  let front := beforeColon.rdropWhile (!isHeadingBreak ·)
  let start := beforeColon.rtakeWhile (!isHeadingBreak ·)
  let headingOffset := byteLength front + (byteLength start - byteLength (trimStart start))
  let preceding := trimEnd (front ++ start.takeWhile isWhitespace)
  let marker := preceding.rtakeWhile (!isWhitespace ·)
  let markedPrefix := beforeColon.drop (preceding.length - marker.length)
  if preceding ≠ [] ∧ (markedHeadingTitle (trim markedPrefix)).isSome = true then
    (trim markedPrefix, byteLength (preceding.rdropWhile (!isWhitespace ·)) +
      (byteLength markedPrefix - byteLength (trimStart markedPrefix)))
  else (trim start, headingOffset)

def possibleInlineFramingBoundary (text : List Char) : Bool :=
  let heading := trim text
  let inlineWords := asciiWords unicode heading
  let marked := markedHeadingTitle heading
  let words := alphanumericWords unicode (marked.getD heading)
  heading ≠ [] && !decide ('\n' ∈ heading) && heading.length ≤ 80 && inlineWords ≠ [] &&
      inlineWords.length ≤ 8 && endsWithSourceFramingTerm inlineWords &&
      (!headingNegatesFraming inlineWords || negatedSourceFramingHeading inlineWords) ||
    possibleFramingBoundary unicode text &&
      (marked.isSome || mitigationControlSectionHeading words ||
        words.head?.any fun word => isOneOf ["advantage", "advantages", "appendix", "background",
          "benefit", "benefits", "conclusion", "conclusions", "definitions", "introduction",
          "next", "overview", "payment", "recommendation", "recommendations", "references",
          "remedies", "remedy", "resources", "scope", "solution", "solutions", "summary", "terms",
          "what", "when", "where", "who", "why"] (toAsciiLowercase word))

def applyInlineHeadingCandidate (current : Option SourceFraming) (candidate : List Char) :
    Option SourceFraming × Bool :=
  match framingFromInlineHeading unicode candidate with
  | some next => (some next, true)
  | none => if possibleInlineFramingBoundary unicode candidate then (none, true)
    else (current, false)

/-! ## Questions -/

def mitigationQuestionHasAction (words : List (List Char)) (bareControlIsAction : Bool) : Bool :=
  !(words.drop 1).any (isOneOf ["cannot", "fail", "failed", "failing", "failure", "failures",
      "ineffective", "not"]) &&
    ((words.drop 1).any (isOneOf ["address", "addressed", "avoid", "avoided", "controlled",
        "eliminate", "eliminated", "fix", "fixed", "manage", "managed", "mitigate", "mitigated",
        "prevent", "prevented", "reduce", "reduced", "remedied", "remedy", "resolve",
        "resolved"]) ||
      (words.drop 1).tails.any fun tail => tail.head? == some "control".toList &&
        (bareControlIsAction || tail[1]?.any fun next => (sourceFramingFromNoun next).isSome))

def isMitigationQuestionNoun (word : List Char) : Bool :=
  isOneOf ["control", "controls", "mitigation", "mitigations", "recommendation",
    "recommendations", "remedies", "remedy", "solution", "solutions"] word

def controlMeasures : List (List Char) :=
  ["control".toList, "measures".toList]

def auxiliaryMitigationQuestion (words : List (List Char)) : Bool :=
  let behind := words.drop 1
  let behind := if behind.head? = some "there".toList then behind.drop 1 else behind
  let nouns := behind.dropWhile
    (isOneOf ["a", "an", "any", "documented", "proposed", "recommended", "the"])
  let tail :=
    if nouns.take 2 = controlMeasures then some (nouns.drop 2)
    else if nouns.head?.any isMitigationQuestionNoun then some (nouns.drop 1)
    else none
  tail.any fun tail => tail = [] || tail.length == 1 &&
    tail.head?.any (isOneOf ["available", "documented", "proposed", "recommended"])

def interrogativeMitigationBoundary (words : List (List Char)) : Bool :=
  3 ≤ words.length && words.length ≤ 8 && words.head?.any fun first =>
    if first = "how".toList then mitigationQuestionHasAction words true
    else if first = "what".toList then
      words[1]?.any (isOneOf ["are", "is"]) &&
        (words.getLast?.any isMitigationQuestionNoun ||
          words.drop (words.length - 2) = controlMeasures)
    else if isOneOf ["are", "is", "was", "were"] first then auxiliaryMitigationQuestion words
    else isOneOf ["can", "could", "may", "might", "must", "shall", "should", "will", "would"]
      first && mitigationQuestionHasAction words false

/-- A question that ends a framing. -/
def possibleInterrogativeFramingBoundary (text : List Char) : Bool :=
  let words := asciiWords unicode text
  let mitigation := interrogativeMitigationBoundary words
  !headingNegatesFraming words && (possibleFramingBoundary unicode text || mitigation) &&
    (possibleInlineFramingBoundary unicode text || mitigation) &&
    (!words.head?.any (isOneOf ["how", "what", "when", "where", "who", "why"]) ||
      words.take 3 = ["how".toList, "to".toList, "avoid".toList] || mitigation)

/-- The framing terms of words, with the positions where they start and end; `taken` words
belong to the term before. -/
def framingTerms (cursor taken : Nat) : List (List Char) → List (SourceFraming × Nat × Nat)
  | [] => []
  | word :: rest =>
    if 0 < taken then framingTerms (cursor + 1) (taken - 1) rest
    else
      match sourceFramingTermAt (word :: rest) with
      | some (framing, length) =>
        (framing, cursor, cursor + length) :: framingTerms (cursor + 1) (length - 1) rest
      | none => framingTerms (cursor + 1) 0 rest

def sectionQuestionPresencePredicate (word : List Char) : Bool :=
  isOneOf ["apply", "applicable", "applies", "detected", "discovered", "emerge", "emerged",
    "exist", "exists", "found", "identified", "known", "noted", "observed", "occur", "occurred",
    "occurring", "possible", "present", "remain", "remains", "reported", "unresolved"] word

/-- A question about the framing that may be answered by a bare "no". -/
def sectionQuestionAcceptsBareNo (text : List Char) (activeFraming : SourceFraming) : Bool :=
  let words := ((alphanumericWords unicode ((markedHeadingTitle (trim text)).getD
    (trim text))).take 10).map toAsciiLowercase
  if words = [] ∨ 9 < words.length then false
  else
    match framingTerms 0 0 words with
    | [(framing, start, finish)] =>
      let rest := words.drop finish
      framing == activeFraming &&
        (words.take start).all (isOneOf ["any", "are", "can", "could", "did", "do", "does",
          "had", "has", "have", "is", "known", "may", "might", "there", "was", "were", "will",
          "would"]) &&
        match rest with
        | [] => true
        | [word] => sectionQuestionPresencePredicate word
        | [been, word] => been == "been".toList && sectionQuestionPresencePredicate word
        | _ => false
    | _ => false

end Headings

end DocumentSummarizer.Coherent
