import DocumentSummarizer.Coherent.FramingHeadings

/-! # Framing denials

The sentences of a framed section that deny what it is about, and the clauses behind them that
take its framing up again.
-/

namespace DocumentSummarizer.Coherent

open Library Pipeline

/-! ## Words of a denial -/

structure DenialWord where
  commaBefore : Bool
  word : List Char
  deriving DecidableEq, Repr

def isComma (c : Char) : Bool :=
  c ∈ [',', '،', '，']

section Unicode

variable (unicode : Unicode)

/-- The words of a text, with apostrophes inside them, and what is between them. No more than
`left + 1` are read; `gap` and `word` are under way. -/
def denialSpans (left : Nat) (gap word : List Char) : List Char → List (List Char × List Char)
  | [] => if word = [] then [] else [(gap, word)]
  | c :: rest =>
    let internalApostrophe := (c == '\'' || c == '’') && word ≠ [] &&
      rest.head?.any unicode.isAlphanumeric
    if unicode.isAlphanumeric c || internalApostrophe then
      denialSpans left gap (word ++ [c]) rest
    else if word = [] then denialSpans left (gap ++ [c]) [] rest
    else
      match left with
      | 0 => [(gap, word)]
      | left + 1 => (gap, word) :: denialSpans left [c] [] rest

def sectionDenialWords (text : List Char) : List DenialWord :=
  match denialSpans unicode 16 [] [] text with
  | [] => []
  | (_, first) :: spans => ⟨false, toAsciiLowercase first⟩ ::
      spans.map fun span => ⟨span.1.any isComma, toAsciiLowercase span.2⟩

end Unicode

/-- The words of a denial without their commas. -/
def plainWords (words : List DenialWord) : List (List Char) :=
  words.map (·.word)

def headIs (names : List String) (words : List DenialWord) : Bool :=
  words.head?.any fun word => isOneOf names word.word

def commaAhead (words : List DenialWord) : Bool :=
  words.head?.any (·.commaBefore)

/-! ## Denials -/

def isSectionTemporalAdverb (word : List Char) : Bool :=
  isOneOf ["currently", "yet"] word

def sectionDenialTail (words : List DenialWord) : Bool :=
  match plainWords words with
  | [] => true
  | [word] => isOneOf ["currently", "yet"] word
  | [a, b] => ([a, b] : List (List Char)) ∈ [["at".toList, "present".toList],
      ["for".toList, "now".toList], ["so".toList, "far".toList], ["to".toList, "date".toList]]
  | [a, b, c] => [a, b, c] = ["at".toList, "this".toList, "time".toList]
  | _ => false

/-- The words behind the first temporal adverb in front. -/
def skipTemporal (words : List DenialWord) : List DenialWord :=
  if headIs ["currently", "yet"] words then words.drop 1 else words

/-- The nouns behind "there is no" in its forms, and whether a form of "to be" was among
them. -/
def existentialDenialPrefix (words : List DenialWord) : Option (List DenialWord × Bool) := do
  guard (headIs ["there"] words)
  let early := headIs ["currently", "yet"] (words.drop 1)
  let words := skipTemporal (words.drop 1)
  let (perfect, contractedNegative, copular) ←
    if headIs ["had", "has", "have"] words then some (true, false, false)
    else if headIs ["hadn't", "hadn’t", "hasn't", "hasn’t", "haven't", "haven’t"] words then
      some (true, true, false)
    else if headIs ["are", "is", "was", "were"] words then some (false, false, true)
    else if headIs ["aren't", "aren’t", "isn't", "isn’t", "wasn't", "wasn’t", "weren't",
        "weren’t"] words then
      some (false, true, true)
    else none
  let words := words.drop 1
  let expanded := headIs ["not"] words
  guard (!(expanded && contractedNegative))
  let words := if expanded then words.drop 1 else words
  let (words, expanded, temporal) ←
    if perfect then do
      let later := !early && headIs ["currently", "yet"] words
      let words := if later then words.drop 1 else words
      let negated := headIs ["not"] words
      guard (!(negated && (contractedNegative || expanded)))
      let words := if negated then words.drop 1 else words
      guard (headIs ["been"] words)
      some (words.drop 1, expanded || negated, early || later)
    else some (words, expanded, early)
  let words := if temporal then words else skipTemporal words
  let negated := headIs ["not"] words
  guard (!(negated && (contractedNegative || expanded)))
  let words := if negated then words.drop 1 else words
  guard (headIs [if contractedNegative || expanded || negated then "any" else "no"] words)
  some (words.drop 1, copular || perfect)

/-- The words behind the modifiers of a noun, none of them behind a comma. -/
def skipNounModifiers : List DenialWord → Option (List DenialWord)
  | [] => some []
  | word :: rest =>
    if word.word = "applicable".toList ∨ isSourceFramingModifier word.word = true then
      if commaAhead rest then none else skipNounModifiers rest
    else some (word :: rest)

/-- The words behind "neither" or "no" in front of a noun, not behind a comma. -/
def skipNounNegation (afterSeparator : Bool) (words : List DenialWord) :
    Option (List DenialWord) :=
  if afterSeparator && headIs ["neither", "no"] words then
    if commaAhead (words.drop 1) then none else some (words.drop 1)
  else some words

theorem skipNounModifiers_length {words rest : List DenialWord}
    (skipped : skipNounModifiers words = some rest) : rest.length ≤ words.length := by
  induction words with
  | nil =>
      obtain rfl := Option.some.inj skipped
      exact le_rfl
  | cons word words ih =>
      unfold skipNounModifiers at skipped
      split at skipped
      · split at skipped
        · cases skipped
        · have shorter := ih skipped
          simp only [List.length_cons]
          omega
      · obtain rfl := Option.some.inj skipped
        exact le_rfl

theorem skipNounNegation_length {afterSeparator : Bool} {words rest : List DenialWord}
    (skipped : skipNounNegation afterSeparator words = some rest) :
    rest.length ≤ words.length := by
  unfold skipNounNegation at skipped
  split at skipped
  · split at skipped
    · cases skipped
    · obtain rfl := Option.some.inj skipped
      simp
  · obtain rfl := Option.some.inj skipped
    exact le_rfl

theorem sourceFramingTermAt_taken {words : List (List Char)} {framing : SourceFraming}
    {taken : Nat} (found : sourceFramingTermAt words = some (framing, taken)) :
    words ≠ [] ∧ 0 < taken := by
  cases words with
  | nil => cases found
  | cons word rest =>
      refine ⟨List.cons_ne_nil word rest, ?_⟩
      simp only [sourceFramingTermAt] at found
      split at found
      · cases found
        decide
      · split at found
        · cases found
          decide
        · split at found
          · cases found
            decide
          · obtain ⟨_, -, same⟩ := Option.map_eq_some_iff.mp found
            cases same
            decide

/-- The words behind a list of framing nouns that names the framing of the section. -/
def consumeSectionDenialNouns (requiredFraming : SourceFraming)
    (afterSeparator commaIsSeparator contains : Bool) (words : List DenialWord) :
    Option (List DenialWord) :=
  if commaAhead words && !commaIsSeparator then none
  else
    match _negation : skipNounNegation afterSeparator words with
    | none => none
    | some nouns =>
      match _modifiers : skipNounModifiers nouns with
      | none => none
      | some nouns =>
        match _term : sourceFramingTermAt (plainWords nouns) with
        | none => none
        | some (nounFraming, taken) =>
          if 1 < taken ∧ commaAhead (nouns.drop 1) = true then none
          else
            let rest := nouns.drop taken
            let contains := contains || nounFraming == requiredFraming
            if headIs ["and", "nor", "or"] rest then
              consumeSectionDenialNouns requiredFraming true false contains (rest.drop 1)
            else if commaAhead rest then
              consumeSectionDenialNouns requiredFraming true true contains rest
            else if contains then some rest
            else none
  termination_by words.length
  decreasing_by
    all_goals
      have first := skipNounNegation_length _negation
      have second := skipNounModifiers_length _modifiers
      obtain ⟨nonempty, positive⟩ := sourceFramingTermAt_taken _term
      have filled := List.length_pos_iff.mpr nonempty
      simp only [plainWords, List.length_map] at filled
      simp only [List.length_drop]
      omega

/-- The words behind auxiliaries and one temporal adverb, and whether a form of "to be" was
among them. -/
def skipAuxiliaries (temporal copular : Bool) : List DenialWord → List DenialWord × Bool
  | [] => ([], copular)
  | word :: rest =>
    if isOneOf ["are", "been", "had", "has", "have", "is", "was", "were"] word.word then
      skipAuxiliaries temporal
        (copular || isOneOf ["are", "been", "is", "was", "were"] word.word) rest
    else if !temporal && isSectionTemporalAdverb word.word then
      skipAuxiliaries true copular rest
    else (word :: rest, copular)

def denialPredicates : List String :=
  ["apply", "applicable", "applies", "detected", "discovered", "exist", "exists", "found",
    "identified", "known", "noted", "observed", "present", "remain", "remains", "reported"]

/-- A predicate of a denial, behind its nouns. -/
def denialPredicate (copular : Bool) (words : List DenialWord) : Bool :=
  let (behind, copular) := skipAuxiliaries false copular words
  if headIs ["outstanding"] behind then copular && sectionDenialTail (behind.drop 1)
  else if headIs denialPredicates behind then
    let rest := behind.drop 1
    sectionDenialTail
      (if headIs ["remain", "remains"] behind && headIs ["outstanding"] rest then rest.drop 1
      else rest)
  else false

def boundedSectionDenialPredicate (requiredFraming : Option SourceFraming) (copular : Bool)
    (words : List DenialWord) : Bool :=
  match requiredFraming with
  | none => denialPredicate copular words
  | some required =>
    match consumeSectionDenialNouns required false false false words with
    | none => false
    | some rest =>
      sectionDenialTail rest ||
        headIs ["to"] rest && headIs ["report"] (rest.drop 1) &&
          sectionDenialTail (rest.drop 2) ||
        denialPredicate copular rest

section Unicode

variable (unicode : Unicode)

def boundedSectionDenialClause (text : List Char) (activeFraming : SourceFraming) : Bool :=
  let words := sectionDenialWords unicode text
  if 16 < words.length ∨ words = [] then false
  else if headIs ["not"] words then
    headIs ["applicable"] (words.drop 1) && sectionDenialTail (words.drop 2)
  else if headIs ["none"] words then
    words.length == 1 || boundedSectionDenialPredicate none false (words.drop 1)
  else if headIs ["no", "neither"] words then
    boundedSectionDenialPredicate (some activeFraming) false (words.drop 1)
  else
    (existentialDenialPrefix words).any fun nouns =>
      boundedSectionDenialPredicate (some activeFraming) nouns.2 nouns.1

def isBoundedBareNoAnswer (text : List Char) : Bool :=
  match alphanumericWords unicode text with
  | [word] => toAsciiLowercase word == "no".toList
  | _ => false

/-! ## Clauses -/

/-- The first word of a text is one of these. -/
def leadIs (names : List String) (text : List Char) : Bool :=
  (alphanumericWords unicode text).head?.any fun word => isOneOf names (toAsciiLowercase word)

def coordinatedContinuationLead (text : List Char) : Bool :=
  leadIs unicode ["although", "and", "but", "however", "nevertheless", "nonetheless", "nor", "or",
    "still", "though", "whereas", "while", "yet"] text

def disjunctiveContinuationLead (text : List Char) : Bool :=
  leadIs unicode ["or"] text

def denialQualificationLead (text : List Char) : Bool :=
  leadIs unicode ["as", "because", "if", "pending", "since", "unless", "until", "when", "where",
    "whether"] text

/-- A text behind the spaces and the punctuation of a continuation. -/
def trimContinuation (text : List Char) : List Char :=
  text.dropWhile fun c => isWhitespace c || c ∈ [',', ':', ';']

def continuationAfterCoordinator (text : List Char) : List Char :=
  trimContinuation (((splitOnceWhere (!unicode.isAlphanumeric ·) (trimContinuation text)).map
    (·.2)).getD [])

def beginsWithDeclarativeSourceClause (text : List Char) : Bool :=
  !(text.find? isSourceSentenceTerminal).any isSourceQuestionTerminal

def beginsWithDeclarativeSectionDenial (text : List Char) (activeFraming : SourceFraming) : Bool :=
  beginsWithDeclarativeSourceClause text && boundedSectionDenialClause unicode text activeFraming

/-- The first sentence of a text with its terminal. -/
def firstSourceSentence (text : List Char) : List Char :=
  text.takeWhile (!isSourceSentenceTerminal ·) ++
    (text.dropWhile (!isSourceSentenceTerminal ·)).take 1

/-- Where characters of a kind are in a text: what is in front of each, and what is behind it. -/
def occurrencesWhere (kind : Char → Bool) : List Char → List (List Char × Char × List Char)
  | [] => []
  | c :: rest =>
    let later := (occurrencesWhere kind rest).map fun found => (c :: found.1, found.2)
    if kind c then ([], c, rest) :: later else later

/-- The denial in front of a coordinated clause, and the clause. -/
def coordinatedClauseBoundary (text clause : List Char) (activeFraming : SourceFraming) :
    Option (List Char × List Char) :=
  if boundedSectionDenialClause unicode clause activeFraming then none
  else
    (occurrencesWhere isSourceCoordinationDelimiter text).findSome? fun (front, delimiter, rest) =>
      let startsBoundary :=
        if coordinatedContinuationLead unicode rest then
          !disjunctiveContinuationLead unicode rest ||
            beginsWithDeclarativeSectionDenial unicode
              (continuationAfterCoordinator unicode rest) activeFraming
        else delimiter ∈ [';', '؛'] && !denialQualificationLead unicode rest
      if byteLength front < byteLength clause ∧ startsBoundary = true ∧
          boundedSectionDenialClause unicode front activeFraming = true then
        some (front, rest)
      else none

/-- "N/A" in front of a text, and what is behind it. -/
def boundedNotApplicableAbbreviation (text : List Char) : Option (List Char × List Char) :=
  if toAsciiLowercase (text.take 3) ∈ ["n/a".toList, "n.a".toList] then
    let remainder := text.drop 3
    let behind := remainder.dropWhile isSourceSentenceTerminal
    if remainder ≠ [] ∧ (behind = remainder ∨ behind.head?.any (!isWhitespace ·) = true) then none
    else some (text.take 3, remainder)
  else none

end Unicode

end DocumentSummarizer.Coherent
