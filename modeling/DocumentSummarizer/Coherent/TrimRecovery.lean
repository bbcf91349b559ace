import DocumentSummarizer.Coherent.UnitAdmission
import DocumentSummarizer.Pipeline.SentenceUnits

/-! # Trimming of clipped units

The decoder stops a unit at its ceiling, wherever in a sentence that is.  A General answer
with clipped units is recovered without the model: a clipped unit keeps the sentences that
it completes, or is withheld.
-/

namespace DocumentSummarizer.Coherent

open DocumentSummarizer.Library DocumentSummarizer.Pipeline

def trimmedCode : String := "COHERENT_SUMMARY_UNIT_TRIMMED"

def withheldCode : String := "COHERENT_SUMMARY_CLIPPED_UNITS_WITHHELD"

def trimmedMessage (claimId : String) : String :=
  "Summary unit " ++ claimId ++
    " was trimmed to its last complete sentence; the incomplete tail was withheld"

def trimmedWarning (claimId : String) : PipelineWarning :=
  ⟨trimmedCode, trimmedMessage claimId, some .synthesize⟩

def withheldUnitsWarning (withheld : Nat) : PipelineWarning :=
  ⟨withheldCode, toString withheld ++ " clipped summary unit(s) had no safe complete prefix and " ++
    "were withheld without regeneration", some .synthesize⟩

def wasTrimmed (claim : CitedClaim) (warnings : List PipelineWarning) : Bool :=
  warnings.any fun warning => decide (warning.code = trimmedCode) &&
    decide (warning.message = trimmedMessage claim.claimId) &&
    decide (warning.stage = some .synthesize)

/-! ## One text -/

section Texts

variable (tables : CompletionTables)

/-- The decoder stopped at its ceiling before the text was complete. -/
def clipped (text : String) (ceiling : Nat) : Bool :=
  decide (0 < ceiling) && decide (text.toList.length = ceiling) &&
    decide (trimStart text.toList = text.toList) && decide (trimEnd text.toList ≠ []) &&
    !completionValid tables text.toList

/-- The words of a tail behind the marks that open it. -/
def leadWords (tail : List Char) : List (List Char) :=
  ((splitWhere (fun c => !tables.sentences.unicode.isAlphabetic c)
    (tail.dropWhile fun c => isWhitespace c || isTokenOpener tables.sentences c)).filter
      (!·.isEmpty)).map tables.sentences.unicode.toLowercase

def cutConjunctions : List (List Char) :=
  ["unless", "except", "provided", "notwithstanding", "however", "but"].map String.toList

/-- The first words of the conjunctions of two words. -/
def cutOpenings : List (List Char) :=
  ["subject", "only", "on"].map String.toList

def cutPairs : List (List Char × List Char) :=
  [("subject".toList, "to".toList), ("only".toList, "if".toList),
    ("on".toList, "condition".toList)]

/-- Whether a tail qualifies what stands before it. -/
def cutQualification (tail : List Char) : Bool :=
  let words := (leadWords tables tail).take 2
  qualification tables.sentences tail || words.head?.any (· ∈ cutConjunctions) ||
    (match words with
      | [first] => decide (first ∈ cutOpenings)
      | [first, second] => decide ((first, second) ∈ cutPairs)
      | _ => false)

/-- `prefix`: the text up to its last complete sentence, when that may stand alone. -/
def safePrefix (text : String) : Interruptible (Option String) := do
  let source := text.toList
  let (sentences, _) ← okOrElse (sentenceUnitsV13 tables.sentences source) .panicked
  match sentences.getLast? with
  | none => return none
  | some (_, finish) => do
    let rest ← okOrElse (byteSlice source finish (byteLength source)) .panicked
    if cutQualification tables (trimStart rest) then
      return none
    else do
      let retained ← okOrElse (byteSlice source 0 finish) .panicked
      if canonicalBoundedText (String.ofList retained) source.length = true ∧
          completionValid tables retained = true then
        return some (String.ofList retained)
      else
        return none

end Texts

/-! ## The answer -/

/-- What the recovery takes from elsewhere besides: `serde_json::to_string`. -/
structure RecoveryPlatform extends UnitPlatform where
  toJson : RawResponse → Option String

structure GeneratedSummaryContent where
  claims : List CitedClaim
  evidence : List EvidenceItem
  trimWarnings : List PipelineWarning
  deriving DecidableEq, Repr

/-- The units so far. -/
structure Recovered where
  trimmedPositions : List Nat
  retained : List RawUnit
  withheld : Nat
  deriving DecidableEq, Repr

variable (platform : RecoveryPlatform) (documentId : String) (catalog : SourceCatalog)
  (maximumUnits maximumCharacters : Nat)

/-- Writes units and reads them as an answer of their own. -/
def parseUnits (units : List RawUnit) : Interruptible (List CitedClaim × List EvidenceItem) := do
  let response ← propagate (okOrElse (platform.toJson ⟨units⟩) invalidUnits)
  propagate (parseResponseWithLimits platform.toUnitPlatform .general response documentId catalog
    maximumUnits maximumCharacters)

/-- The unit that stands for one in the reading of its sources. -/
def probeOf (unit : RawUnit) : RawUnit :=
  if clipped platform.tables unit.text maximumCharacters then { unit with text := "X." } else unit

def recoverUnits : Recovered → List RawUnit → Interruptible Recovered
  | state, [] => .ok state
  | state, unit :: later => do
    let _ ← parseUnits platform documentId catalog maximumUnits maximumCharacters
      [probeOf platform maximumCharacters unit]
    if clipped platform.tables unit.text maximumCharacters then
      match ← safePrefix platform.tables unit.text with
      | none => recoverUnits { state with withheld := state.withheld + 1 } later
      | some text =>
        recoverUnits { state with
          trimmedPositions := state.trimmedPositions ++ [state.retained.length]
          retained := state.retained ++ [{ unit with text := text }] } later
    else
      recoverUnits { state with retained := state.retained ++ [unit] } later

def trimmedWarnings (claims : List CitedClaim) (positions : List Nat) :
    Interruptible (List PipelineWarning) :=
  positions.mapM fun position => do
    let claim ← indexed claims position
    return trimmedWarning claim.claimId

/-- `trim::recover` -/
def recover (response : String) : Interruptible (Option GeneratedSummaryContent) :=
  match platform.fromStr response with
  | none => .ok none
  | some raw =>
    if raw.units.any fun unit => clipped platform.tables unit.text maximumCharacters then do
      propagate (refuseIf (raw.units = [] ∨ raw.units.length > maximumUnits) invalidUnits)
      let recovered ← recoverUnits platform documentId catalog maximumUnits maximumCharacters
        ⟨[], [], 0⟩ raw.units
      propagate (refuseIf (recovered.retained = []) clippedUnit)
      let (claims, evidence) ← parseUnits platform documentId catalog maximumUnits
        maximumCharacters recovered.retained
      let trimmed ← trimmedWarnings claims recovered.trimmedPositions
      return some ⟨claims, evidence, trimmed ++
        if 0 < recovered.withheld then [withheldUnitsWarning recovered.withheld] else []⟩
    else .ok none

/-! ## What a recovery does to a unit -/

section Specification

variable (tables : CompletionTables)

/-- A tail that begins with a conjunction, or that is all there is of one. -/
def Qualifies (tail : List Char) : Prop :=
  qualification tables.sentences tail = true ∨
    (∃ first ∈ cutConjunctions, [first] <+: leadWords tables tail) ∨
    (∃ first ∈ cutOpenings, leadWords tables tail = [first]) ∨
    ∃ pair ∈ cutPairs, [pair.1, pair.2] <+: leadWords tables tail

/-- A cut of a text behind its last complete sentence, with nothing behind it that
qualifies what is kept. -/
structure SafeCut (text kept : String) (tail : List Char) : Prop where
  split : text.toList = kept.toList ++ tail
  sentence : ∃ sentences start rest,
    sentenceUnitsV13 tables.sentences text.toList = some (sentences, rest) ∧
      sentences.getLast? = some (start, byteLength kept.toList)
  canonical : canonicalBoundedText kept text.toList.length = true
  complete : completionValid tables kept.toList = true
  unqualified : ¬ Qualifies tables (trimStart tail)

/-- What becomes of a unit. -/
inductive UnitOutcome (ceiling : Nat) : RawUnit → Option RawUnit → Prop where
  | whole {unit : RawUnit} (unclipped : clipped tables unit.text ceiling = false) :
      UnitOutcome ceiling unit (some unit)
  | trimmed {unit : RawUnit} {text : String} {tail : List Char}
      (isClipped : clipped tables unit.text ceiling = true)
      (cut : SafeCut tables unit.text text tail) :
      UnitOutcome ceiling unit (some { unit with text := text })
  | withheld {unit : RawUnit} (isClipped : clipped tables unit.text ceiling = true)
      (unsafeCut : ∀ text tail, ¬ SafeCut tables unit.text text tail) :
      UnitOutcome ceiling unit none

/-- Sources that may stand together under one General unit. -/
structure AdmissibleSources (catalog : SourceCatalog) (unit : RawUnit) : Prop where
  cites : unit.sourceIds ≠ []
  few : unit.sourceIds.length ≤ maxSourcesOfUnit
  distinct : unit.sourceIds.Nodup
  known : ∀ sourceId ∈ unit.sourceIds, sourceId ∈ catalog.candidates.map (·.requestId)
  oneWindow : ∀ a ∈ citedSources catalog unit, ∀ b ∈ citedSources catalog unit,
    a.selectionWindow = b.selectionWindow
  oneFraming : ∀ a ∈ citedSources catalog unit, ∀ b ∈ citedSources catalog unit,
    a.sourceFraming = b.sourceFraming

/-- The units that are kept, each with the unit that it comes from. -/
def survivors (units : List RawUnit) (outcomes : List (Option RawUnit)) :
    List (RawUnit × RawUnit) :=
  (units.zip outcomes).filterMap fun entry => entry.2.map (entry.1, ·)

/-- The claims of the units whose text was shortened. -/
def shortenedClaims (claims : List CitedClaim) (kept : List (RawUnit × RawUnit)) :
    List CitedClaim :=
  ((claims.zip kept).filter fun entry => decide (entry.2.2.text ≠ entry.2.1.text)).map (·.1)

end Specification

end DocumentSummarizer.Coherent
