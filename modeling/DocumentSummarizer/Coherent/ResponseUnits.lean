import DocumentSummarizer.Pipeline.DirectDelivery

/-! # Units of a coherent response

The model writes units of text over the segments of a source catalog.  An answer is taken
as a whole: every unit is complete, within its ceiling, and over known segments that may
stand together.
-/

namespace DocumentSummarizer.Coherent

open DocumentSummarizer.Library DocumentSummarizer.Pipeline

/-! ## The catalog -/

inductive SourceFraming where
  | problem
  | risk
  | warning
  | exception
  | limitation
  deriving DecidableEq, Repr

def SourceFraming.relationship : SourceFraming → String
  | .problem => "The document presents the following as a problem"
  | .risk => "The document presents the following as a risk"
  | .warning => "The document gives the following warning"
  | .exception => "The document states the following exception"
  | .limitation => "The document identifies the following limitation"

def SourceFraming.renderClaim (framing : SourceFraming) (text : String) : String :=
  framing.relationship ++ ": " ++ text

structure SourceCandidate where
  requestId : String
  evidence : EvidenceItem
  selectionWindow : Option Nat
  sourceFraming : Option SourceFraming
  deriving DecidableEq, Repr

structure SourceCatalog where
  candidates : List SourceCandidate
  omittedSourceUnits : Nat
  deriving DecidableEq, Repr

/-- `SYNTHESIS_VERSION` -/
def coherentVersion : String := "13.0.0"

/-- The versions whose prompt is balanced over the pages. -/
def balancedVersions : List String := [coherentVersion, "12.0.0", "11.0.0", "10.0.0"]

/-- The positions of the segments of a page. -/
def pageIndexes (candidates : List SourceCandidate) (page : Nat) : List Nat :=
  (candidates.zipIdx.filter fun entry =>
    decide (entry.1.evidence.sourceSpan.pageStart = page)).map (·.2)

/-- The first, the middle and the last of them. -/
def balancedIndexes (indexes : List Nat) : List Nat :=
  [indexes.getD 0 0, indexes.getD ((indexes.length - 1) / 2) 0, indexes.getD (indexes.length - 1) 0]

/-- A segment is kept when it is one of those of its page. -/
def keptAt (candidates : List SourceCandidate) (index : Nat) : Bool :=
  match candidates[index]? with
  | none => false
  | some candidate =>
      decide (index ∈
        balancedIndexes (pageIndexes candidates candidate.evidence.sourceSpan.pageStart))

def pageBalancedCatalog (profile : SummaryProfile) (version : String) (catalog : SourceCatalog) :
    SourceCatalog :=
  if profile = .general ∧ version ∈ balancedVersions then
    ⟨(catalog.candidates.zipIdx.filter fun entry => keptAt catalog.candidates entry.2).map (·.1),
      catalog.omittedSourceUnits⟩
  else catalog

/-- The ids that the schema of `prompt_and_schema_for_version` enumerates. -/
def offeredSourceIds (profile : SummaryProfile) (version : String) (catalog : SourceCatalog) :
    Except PipelineFailure (List String) := do
  let balanced := pageBalancedCatalog profile version catalog
  refuseIf (balanced.candidates = [])
    (stageFailure .synthesize "SYNTHESIS_SOURCE_CONTEXT_EMPTY"
      "Coherent synthesis requires at least one bounded source segment" false)
  return balanced.candidates.map (·.requestId)

/-! ## Complete texts -/

/-- The tables that the completeness of a text is read from. -/
structure CompletionTables where
  sentences : SentenceTables
  /-- `GeneralCategory::CurrencySymbol` -/
  currencySymbol : Char → Bool

def completionClosers : List Char := ['"', '\'', '”', '’', ')', ']', '}']

def completionTerminals : List Char := ['.', '!', '?', '。', '！', '？']

def valueSuffixes : List Char := ['%', '‰', '‱', '°']

/-- `pages::completion_valid`: a terminal behind a word, a number or a value with its unit. -/
def completionValid (tables : CompletionTables) (text : List Char) : Bool :=
  let ending := text.rdropWhile (· ∈ completionClosers)
  match ending.getLast? with
  | none => false
  | some terminal =>
      if terminal ∉ completionTerminals then false
      else
        let content := ending.dropLast.rdropWhile (· ∈ completionClosers)
        match content.getLast? with
        | none => false
        | some last =>
            tables.sentences.unicode.isAlphanumeric last ||
              ((decide (last ∈ valueSuffixes) || tables.currencySymbol last) &&
                (content.dropLast.rdropWhile isWhitespace).getLast?.any
                  tables.sentences.unicode.isNumeric)

/-! ## The answer -/

structure RawUnit where
  text : String
  sourceIds : List String
  deriving DecidableEq, Repr

structure RawResponse where
  units : List RawUnit
  deriving DecidableEq, Repr

def maxSourcesOfUnit : Nat := 8

def invalidUnits : PipelineFailure :=
  stageFailure .synthesize "MODEL_SUMMARY_RESPONSE_INVALID"
    ("The coherent summary response must contain bounded complete units with known unique " ++
      "source IDs") true

def windowMixed : PipelineFailure :=
  stageFailure .synthesize "MODEL_SUMMARY_RESPONSE_WINDOW_MIXED"
    ("Each selected long-document summary unit must cite sources from exactly one selection " ++
      "window") true

def clippedUnit : PipelineFailure :=
  stageFailure .synthesize "MODEL_SUMMARY_RESPONSE_UNIT_CLIPPED"
    "A coherent summary unit reached the decoder text limit before its sentence completed" true

def mixedSourceFraming : PipelineFailure :=
  stageFailure .synthesize "MODEL_SUMMARY_RESPONSE_FRAMING_MIXED"
    ("A General summary unit mixed sources with different or absent application-derived " ++
      "framing labels") true

def isWindowedGeneralCatalog (profile : SummaryProfile) (catalog : SourceCatalog) : Bool :=
  decide (profile = .general) && !catalog.candidates.isEmpty &&
    catalog.candidates.all (·.selectionWindow.isSome)

/-- The map of the segments by their ids; of two with one id the later one is found. -/
def findSource (catalog : SourceCatalog) (sourceId : String) : Option (Nat × SourceCandidate) :=
  (catalog.candidates.zipIdx.reverse.find? fun entry => entry.1.requestId = sourceId).map
    fun entry => (entry.2, entry.1)

/-- The segments of a unit, each with its place in the catalog. -/
def findSources (catalog : SourceCatalog) :
    List String → List String → Except PipelineFailure (List (Nat × SourceCandidate))
  | _, [] => .ok []
  | unitSources, sourceId :: later => do
    let found ← okOrElse (findSource catalog sourceId) invalidUnits
    refuseIf (sourceId ∈ unitSources) invalidUnits
    let others ← findSources catalog (sourceId :: unitSources) later
    return found :: others

def unitFraming (profile : SummaryProfile) (source : Nat × SourceCandidate) :
    Option SourceFraming :=
  if profile = .general then source.2.sourceFraming else none

/-- What a unit says over its segments, and the evidence of the segments in catalog order. -/
def validateSources (profile : SummaryProfile) (text : String)
    (sources : List (Nat × SourceCandidate)) : Except PipelineFailure (String × List String) := do
  let windows := (sources.filterMap (·.2.selectionWindow)).dedup
  refuseIf (windows ≠ [] ∧ (windows.length ≠ 1 ∨ ∃ source ∈ sources,
      source.2.selectionWindow = none)) windowMixed
  let evidenceIds := (sources.insertionSort fun a b => a.1 ≤ b.1).map (·.2.evidence.evidenceId)
  let framed := sources.filterMap (unitFraming profile)
  refuseIf (0 < framed.length ∧ framed.length ≠ evidenceIds.length) mixedSourceFraming
  match framed.dedup with
  | [] => return (text, evidenceIds)
  | [framing] => return (framing.renderClaim text, evidenceIds)
  | _ => throw mixedSourceFraming

/-- One unit of the answer. -/
def validateUnit (tables : CompletionTables) (profile : SummaryProfile) (catalog : SourceCatalog)
    (maximumCharacters : Nat) (unit : RawUnit) : Except PipelineFailure (String × List String) := do
  let canonical := canonicalBoundedText unit.text maximumCharacters
  let complete := completionValid tables unit.text.toList
  let clippedSourceIdsValid := decide (unit.sourceIds ≠ [] ∧
    unit.sourceIds.length ≤ maxSourcesOfUnit ∧
    unit.sourceIds.dedup.length = unit.sourceIds.length ∧
    ∀ sourceId ∈ unit.sourceIds, (findSource catalog sourceId).isSome = true)
  refuseIf (isWindowedGeneralCatalog profile catalog = true ∧ canonical = true ∧
      unit.text.length = maximumCharacters ∧ complete = false ∧ clippedSourceIdsValid = true)
    clippedUnit
  refuseIf (canonical = false ∨ complete = false ∨ unit.sourceIds = [] ∨
      unit.sourceIds.length > maxSourcesOfUnit) invalidUnits
  let sources ← findSources catalog [] unit.sourceIds
  validateSources profile unit.text sources

/-- Texts over the same segments are equal answers. -/
instance lawfulAnswer : LawfulBEq (String × List String) :=
  inferInstance

/-- The units in their order; none says the same over the same evidence as one before. -/
def validateUnits (tables : CompletionTables) (profile : SummaryProfile) (catalog : SourceCatalog)
    (maximumCharacters : Nat) : List (String × List String) → List RawUnit →
      Except PipelineFailure (List (String × List String))
  | _, [] => .ok []
  | signatures, unit :: later => do
    let validated ← validateUnit tables profile catalog maximumCharacters unit
    refuseIf (validated ∈ signatures) invalidUnits
    let others ← validateUnits tables profile catalog maximumCharacters (validated :: signatures)
      later
    return validated :: others

/-- What the stage takes from elsewhere: the digest, `serde_json`, and the references that
a contract summary attaches to its claims. -/
structure UnitPlatform where
  text : TextPlatform
  tables : CompletionTables
  fromStr : String → Option RawResponse
  attachContractClauseReferences : SourceCatalog → List (String × List String) →
    Except PipelineFailure (List (String × List String))

def parseResponseWithLimits (platform : UnitPlatform) (profile : SummaryProfile)
    (response documentId : String) (catalog : SourceCatalog)
    (maximumUnits maximumCharacters : Nat) :
    Except PipelineFailure (List CitedClaim × List EvidenceItem) := do
  let raw ← okOrElse (platform.fromStr response) invalidUnits
  refuseIf (raw.units = [] ∨ raw.units.length > maximumUnits) invalidUnits
  let validated ← validateUnits platform.tables profile catalog maximumCharacters [] raw.units
  let referenced := validated.flatMap (·.2)
  let validated ← if profile = .contract then
      platform.attachContractClauseReferences catalog validated
    else pure validated
  let claims ← materializeCitedClaims platform.text documentId coherentVersion []
    validated.zipIdx
  return (claims, (catalog.candidates.filter fun candidate =>
    decide (candidate.evidence.evidenceId ∈ referenced)).map (·.evidence))

/-! ## What is admitted -/

/-- The segments that a unit cites, in catalog order. -/
def citedSources (catalog : SourceCatalog) (unit : RawUnit) : List SourceCandidate :=
  catalog.candidates.filter fun candidate => decide (candidate.requestId ∈ unit.sourceIds)

/-- A unit over segments that may stand together. -/
structure AdmissibleUnit (tables : CompletionTables) (profile : SummaryProfile)
    (catalog : SourceCatalog) (maximumCharacters : Nat) (unit : RawUnit) : Prop where
  canonical : canonicalBoundedText unit.text maximumCharacters = true
  complete : completionValid tables unit.text.toList = true
  cites : unit.sourceIds ≠ []
  few : unit.sourceIds.length ≤ maxSourcesOfUnit
  distinct : unit.sourceIds.Nodup
  known : ∀ sourceId ∈ unit.sourceIds, sourceId ∈ catalog.candidates.map (·.requestId)
  oneWindow : ∀ a ∈ citedSources catalog unit, ∀ b ∈ citedSources catalog unit,
    a.selectionWindow = b.selectionWindow
  oneFraming : profile = .general → ∀ a ∈ citedSources catalog unit,
    ∀ b ∈ citedSources catalog unit, a.sourceFraming = b.sourceFraming

/-- What the claim of a unit says: the framing of its segments goes before the text. -/
def renderedText (profile : SummaryProfile) (catalog : SourceCatalog) (unit : RawUnit) : String :=
  match if profile = .general then (citedSources catalog unit).head?.bind (·.sourceFraming)
    else none with
  | none => unit.text
  | some framing => framing.renderClaim unit.text

def renderedUnit (profile : SummaryProfile) (catalog : SourceCatalog) (unit : RawUnit) :
    String × List String :=
  (renderedText profile catalog unit, (citedSources catalog unit).map (·.evidence.evidenceId))

/-- The answers that are admitted. -/
structure Admissible (tables : CompletionTables) (profile : SummaryProfile)
    (catalog : SourceCatalog) (maximumUnits maximumCharacters : Nat) (raw : RawResponse) :
    Prop where
  some : raw.units ≠ []
  bounded : raw.units.length ≤ maximumUnits
  units : ∀ unit ∈ raw.units, AdmissibleUnit tables profile catalog maximumCharacters unit
  distinct : (raw.units.map (renderedUnit profile catalog)).Nodup

end DocumentSummarizer.Coherent
