import DocumentSummarizer.Coherent.FramingDenials

/-! # Framing continuations

What follows a denial may state again that the problems or the risks of the section are
there; the framing goes on from there.
-/

namespace DocumentSummarizer.Coherent

open Library Pipeline

/-! ## Predicates -/

def isSourceStateAdverb (word : List Char) : Bool :=
  isOneOf ["currently", "later", "now", "previously", "still", "subsequently", "yet"] word

def skipSourceStateAdverbs (words : List (List Char)) : List (List Char) :=
  words.dropWhile isSourceStateAdverb

/-- The first of the words is one of these. -/
def starts (names : List String) (words : List (List Char)) : Bool :=
  words.head?.any (isOneOf names)

def resolutionComplementIsClosed (words : List (List Char)) : Bool :=
  starts ["absent", "eliminated", "impossible", "resolved"] words ||
    words.take 2 = ["ruled".toList, "out".toList]

def occurrenceComplementIsClosed (words : List (List Char)) : Bool :=
  resolutionComplementIsClosed words || starts ["none", "unidentified", "unreported"] words

def skipOccurrenceLinkingWords (words : List (List Char)) : List (List Char) :=
  let words := skipSourceStateAdverbs words
  let words := if starts ["to"] words then skipSourceStateAdverbs (words.drop 1) else words
  if starts ["be", "been", "being"] words then skipSourceStateAdverbs (words.drop 1) else words

/-- How many words negate what follows them. -/
def negationAhead (words : List (List Char)) : Nat :=
  if starts ["never", "not"] words then 1
  else if words.take 2 = ["no".toList, "longer".toList] then 2
  else 0

/-- The words start with a predicate that says that something occurs. -/
def occurrencePredicateReintroduces (words : List (List Char)) : Bool :=
  if starts ["arise", "emerge", "exist", "occur", "persist"] words then true
  else if starts ["appear", "appeared", "appearing", "appears", "continue", "continued",
      "continues", "continuing", "remain", "remained", "remains"] words then
    let behind := skipSourceStateAdverbs (words.drop 1)
    let early := negationAhead behind
    let behind := skipOccurrenceLinkingWords (behind.drop early)
    let later := if early = 0 then negationAhead behind else 0
    let behind := if later = 0 then behind else skipOccurrenceLinkingWords (behind.drop later)
    if early = 0 ∧ later = 0 then !occurrenceComplementIsClosed behind
    else resolutionComplementIsClosed behind
  else false

/-- `normalize_contracted_auxiliary`, whose apostrophe is straight or typographic. -/
def contractedAuxiliaries : List (String × String) :=
  [("aren't", "are"), ("can't", "can"), ("couldn't", "could"), ("didn't", "did"),
    ("doesn't", "does"), ("don't", "do"), ("hadn't", "had"), ("hasn't", "has"),
    ("haven't", "have"), ("isn't", "is"), ("mightn't", "might"), ("mustn't", "must"),
    ("shan't", "shall"), ("shouldn't", "should"), ("wasn't", "was"), ("weren't", "were"),
    ("won't", "will"), ("wouldn't", "would")]

def normalizeContractedAuxiliary (word : List Char) : List Char × Bool :=
  let straight := word.map fun c => if c = '’' then '\'' else c
  match contractedAuxiliaries.find? fun entry => entry.1.toList == straight with
  | some entry => (entry.2.toList, true)
  | none => (word, false)

/-- What is negated is a resolution: it is still open. -/
def negatedResolution (words : List (List Char)) : Bool :=
  resolutionComplementIsClosed
    (if starts ["be", "been"] words then skipSourceStateAdverbs (words.drop 1) else words)

def modals : List String :=
  ["can", "could", "may", "might", "must", "shall", "should", "will", "would"]

/-- Behind a modal verb. -/
def modalReintroduces (contracted : Bool) (words : List (List Char)) : Bool :=
  if contracted then negatedResolution words
  else if words.take 2 = ["no".toList, "longer".toList] then
    negatedResolution (skipSourceStateAdverbs (words.drop 2))
  else if starts ["never", "not"] words then
    negatedResolution (skipSourceStateAdverbs (words.drop 1))
  else occurrencePredicateReintroduces words

/-- Behind a form of "to do". -/
def supportReintroduces (contracted : Bool) (words : List (List Char)) : Bool :=
  !contracted && !starts ["never", "not"] words &&
    starts ["appear", "emerge", "exist", "occur", "remain"] words

/-- Behind a form of "to have". -/
def perfectReintroduces (contracted : Bool) (words : List (List Char)) : Bool :=
  let explicit := starts ["never", "not"] words
  let words := if explicit then skipSourceStateAdverbs (words.drop 1) else words
  let words := if starts ["been"] words then skipSourceStateAdverbs (words.drop 1) else words
  if contracted && explicit then false
  else if contracted || explicit then
    resolutionComplementIsClosed words || starts ["unidentified", "unreported"] words
  else
    starts ["appeared", "detected", "discovered", "emerged", "existed", "found", "identified",
      "observed", "occurred", "persisted", "present", "reported"] words

/-- Behind a form of "to be". -/
def copulaReintroduces (contracted : Bool) (words : List (List Char)) : Bool :=
  let negation := negationAhead words
  let words := if negation = 0 then words else skipSourceStateAdverbs (words.drop negation)
  if contracted = true ∧ negation ≠ 0 then false
  else if contracted = true ∨ negation ≠ 0 then
    let words := if starts ["been"] words then skipSourceStateAdverbs (words.drop 1) else words
    resolutionComplementIsClosed words || starts ["none", "unidentified", "unreported"] words
  else
    starts ["appearing", "detected", "discovered", "emerging", "existing", "found", "identified",
      "observed", "occurring", "persisting", "possible", "present", "reported", "unresolved"] words

/-- The words behind a noun say that there is what it names. -/
def framingNounPredicateReintroduces (words : List (List Char)) : Bool :=
  match skipSourceStateAdverbs words with
  | [] => false
  | raw :: rest =>
    let (predicate, contracted) := normalizeContractedAuxiliary raw
    let behind := skipSourceStateAdverbs rest
    if isOneOf ["absent", "no", "none", "unidentified", "unreported", "without"] predicate then
      false
    else if isOneOf ["arise", "arises", "arising", "arose", "emerge", "emerged", "emerges",
        "emerging", "exist", "existed", "exists", "existing", "occur", "occurred", "occurs",
        "occurring", "persist", "persisted", "persists", "persisting"] predicate then true
    else if isOneOf ["cannot"] predicate then negatedResolution behind
    else if isOneOf modals predicate then modalReintroduces contracted behind
    else if isOneOf ["appear", "appeared", "appearing", "appears", "continue", "continued",
        "continues", "continuing", "remain", "remained", "remains"] predicate then
      occurrencePredicateReintroduces (raw :: rest)
    else if isOneOf ["do", "does", "did"] predicate then supportReintroduces contracted behind
    else if isOneOf ["have", "had", "has"] predicate then perfectReintroduces contracted behind
    else isOneOf ["are", "is", "was", "were"] predicate && copulaReintroduces contracted behind

section Unicode

variable (unicode : Unicode)

def continuationReintroducesSourceFraming (continuation : List Char)
    (activeFraming : SourceFraming) : Bool :=
  let words := plainWords (sectionDenialWords unicode (firstSourceSentence continuation))
  let phrase := if starts ["a", "an", "the"] words then words.drop 1 else words
  let term := phrase.dropWhile fun word => isSourceFramingModifier word || isOneOf ["new"] word
  beginsWithDeclarativeSourceClause continuation &&
    (sourceFramingTermAt term).any fun (framing, taken) => framing == activeFraming &&
      framingNounPredicateReintroduces (term.drop taken)

def boundedAnaphoricFramingReintroduction (text : List Char) : Bool :=
  let words := plainWords (sectionDenialWords unicode text)
  2 ≤ words.length && words.length ≤ 16 && starts ["it", "they"] words &&
    framingNounPredicateReintroduces (words.drop 1)

/-! ## Clauses of a continuation -/

/-- A word, its offset, and the position of the word that its clause starts with. -/
structure ClauseWord where
  clauseStart : Nat
  start : Nat
  word : List Char
  deriving DecidableEq, Repr

/-- `str::split_inclusive` at characters of a kind. -/
def splitInclusiveWhere (separates : Char → Bool) : List Char → List (List Char)
  | [] => []
  | c :: rest =>
    if separates c then [c] :: splitInclusiveWhere separates rest
    else
      match splitInclusiveWhere separates rest with
      | [] => [[c]]
      | piece :: later => (c :: piece) :: later

def isClauseBreak (c : Char) : Bool :=
  isSourceSentenceTerminal c || isSourceCoordinationDelimiter c || isSourceInlineColon c

/-- The word of a segment, unless there are seventeen. -/
def readClauseWord (words : List ClauseWord) (clauseStart segmentStart : Nat)
    (piece : List Char) : List ClauseWord :=
  let leading := piece.takeWhile (!unicode.isAlphanumeric ·)
  let word := (piece.dropWhile (!unicode.isAlphanumeric ·)).rdropWhile (!unicode.isAlphanumeric ·)
  if word ≠ [] ∧ words.length < 17 then
    words ++ [⟨clauseStart, segmentStart + byteLength leading, toAsciiLowercase word⟩]
  else words

/-- The words of segments; `words` are read already. -/
def clauseWordsFrom (words : List ClauseWord) (clauseStart segmentStart : Nat) :
    List (List Char) → List ClauseWord
  | [] => words
  | piece :: later =>
    let words := readClauseWord unicode words clauseStart segmentStart piece
    if words.length = 17 then words
    else
      clauseWordsFrom words (if piece.any isClauseBreak then words.length else clauseStart)
        (segmentStart + byteLength piece) later

def clauseWords (text : List Char) : List ClauseWord :=
  clauseWordsFrom unicode [] 0 0 (splitInclusiveWhere (!unicode.isAlphanumeric ·) text)

end Unicode

section Clauses

variable (words : List ClauseWord) (contrastBody : List Char) (activeFraming : SourceFraming)

def wordIs (names : List String) (position : Nat) : Bool :=
  words[position]?.any fun word => isOneOf names word.word

def clauseStartOf (position : Nat) : Nat :=
  (words[position]?.map (·.clauseStart)).getD 0

def predicateIsAffirmative (position : Nat) : Bool :=
  !((words.take position).drop (clauseStartOf words position)).any fun word =>
    isOneOf ["cannot", "neither", "never", "no", "none", "not"] word.word

/-- The word in front of a predicate and its adverbs names something adverse; in front of a
clause that has no such word it is the last of the clause before. -/
def residualSubjectIsAdverse (position : Nat) : Bool :=
  let clauseStart := clauseStartOf words position
  let subject := ((words.take position).drop clauseStart).rdropWhile fun word =>
    isOneOf ["currently", "now", "still", "yet"] word.word
  match clauseStart + subject.length with
  | 0 => false
  | head + 1 => words[head]?.any fun word =>
      sourceFramingFromNoun word.word = some activeFraming ||
        isOneOf ["abuse", "accident", "accidents", "breach", "breaches", "damage", "damages",
          "danger", "dangers", "defect", "defects", "error", "errors", "exposure", "exposures",
          "failure", "failures", "fraud", "harm", "hazard", "hazards", "injuries", "injury",
          "loss", "losses", "misconduct", "noncompliance", "shortfall", "shortfalls",
          "underpayment", "underpayments", "violation", "violations"] word.word

/-- The offset at which the clause of a word starts. -/
def clauseOffset (position : Nat) : Option Nat := do
  let word ← words[position]?
  let first ← words[word.clauseStart]?
  some first.start

def predicateBeginsDeclarativeClause (position : Nat) : Bool :=
  (clauseOffset words position).any fun offset =>
    (dropBytes offset contrastBody).any beginsWithDeclarativeSourceClause

def predicateTermsShareClause (start finish : Nat) : Bool :=
  words[start]?.any fun first => words[finish]?.any fun last =>
    first.clauseStart == last.clauseStart

def modalOccurrencePredicate (position : Nat) : Bool :=
  let adverbs := (words.drop (position + 1)).takeWhile fun word => isSourceStateAdverb word.word
  let occurrence := position + 1 + adverbs.length
  let clause := (words.drop occurrence).takeWhile fun word =>
    word.clauseStart == clauseStartOf words occurrence
  wordIs words modals position && predicateTermsShareClause words position occurrence &&
    occurrencePredicateReintroduces (clause.map (·.word))

/-- A predicate of the clause that may take the framing up again. -/
def adversePredicate (position : Nat) : Bool :=
  predicateIsAffirmative words position &&
    residualSubjectIsAdverse words activeFraming position &&
    predicateBeginsDeclarativeClause words contrastBody position

/-- The position of the first predicate of the first kind that there is. -/
def predicateStart : Option Nat :=
  let adverse := adversePredicate words contrastBody activeFraming
  let positions := List.range words.length
  (positions.find? fun position => adverse position && modalOccurrencePredicate words position)
    |>.or (positions.find? fun position => adverse position &&
      predicateTermsShareClause words position (position + 1) &&
      wordIs words ["are", "is", "remain", "remained", "remains", "was", "were"] position &&
      wordIs words ["possible"] (position + 1))
    |>.or (positions.find? fun position => adverse position &&
      predicateTermsShareClause words position (position + 2) &&
      wordIs words ["are", "is", "was", "were"] position &&
      wordIs words ["still"] (position + 1) && wordIs words ["possible"] (position + 2))

end Clauses

section Unicode

variable (unicode : Unicode)

/-- Where a continuation takes the framing up again. -/
def sourceFramingReintroductionOffset (continuation : List Char) (activeFraming : SourceFraming)
    (skipCoordinator : Bool) : Option Nat :=
  let continuationBody :=
    if skipCoordinator then continuationAfterCoordinator unicode continuation else continuation
  let contrastBody := trimContinuation continuationBody
  let contrastOffset := (byteLength continuation - byteLength continuationBody) +
    (byteLength continuationBody - byteLength contrastBody)
  if beginsWithDeclarativeSourceClause continuation = false then none
  else if continuationReintroducesSourceFraming unicode contrastBody activeFraming then
    some (if skipCoordinator then 0 else contrastOffset)
  else if activeFraming ≠ .problem ∧ activeFraming ≠ .risk then none
  else if skipCoordinator && boundedAnaphoricFramingReintroduction unicode contrastBody then some 0
  else do
    let words := clauseWords unicode contrastBody
    let predicate ← predicateStart words contrastBody activeFraming
    let offset ← clauseOffset words predicate
    let sentenceContinues := skipCoordinator &&
      !((takeBytes offset contrastBody).getD []).any isSourceSentenceTerminal
    some (if sentenceContinues then 0 else contrastOffset + offset)

structure SectionDenialUpdate where
  denialOffset : Nat
  reintroductionOffset : Option Nat
  deriving DecidableEq, Repr

/-- The first sentence or clause of a text that may be a denial, and what is behind it. -/
def denialSentence (text : List Char) (activeFraming : SourceFraming) :
    List Char × List Char :=
  match boundedNotApplicableAbbreviation text with
  | some parts => parts
  | none =>
    let sentence := text.takeWhile (!isSourceSentenceTerminal ·)
    (coordinatedClauseBoundary unicode text sentence activeFraming).getD
      (sentence, text.dropWhile (!isSourceSentenceTerminal ·))

def sectionDenialUpdateWithAnswerContext (text : List Char) (activeFraming : SourceFraming)
    (allowBareNoAnswer : Bool) : Option SectionDenialUpdate :=
  let trimmed := trimStart text
  let denialOffset := byteLength text - byteLength trimmed
  let title := (markedHeadingTitle trimmed).getD trimmed
  let titleOffset := denialOffset +
    ((splitOnceText title trimmed).map fun found => byteLength found.1).getD 0
  let (sentence, remainder) := denialSentence unicode title activeFraming
  let continuation := remainder.dropWhile fun c => isWhitespace c || isSourceSentenceTerminal c
  let continuationOffset := titleOffset + (byteLength title - byteLength remainder) +
    (byteLength remainder - byteLength continuation)
  if (remainder.takeWhile isSourceSentenceTerminal).any isSourceQuestionTerminal then none
  else if boundedNotApplicableAbbreviation title = none ∧
      boundedSectionDenialClause unicode sentence activeFraming = false ∧
      (allowBareNoAnswer && isBoundedBareNoAnswer unicode sentence) = false then none
  else
    some ⟨denialOffset, (sourceFramingReintroductionOffset unicode continuation activeFraming
      (coordinatedContinuationLead unicode continuation)).map (continuationOffset + ·)⟩

end Unicode

end DocumentSummarizer.Coherent
