import DocumentSummarizer.Pipeline.Normalize
import DocumentSummarizer.Pipeline.StoreHistory

/-! # Operator corrections

An operator may correct the text that OCR read.  The corrected text becomes a document of
its own with a run of its own; the run it corrects and everything stored for it stay.
-/

namespace DocumentSummarizer.Pipeline

open Library

def maxCorrectedTextBytes : Nat := 262144

def correctionWarningCode : String := "OPERATOR_CORRECTED_OCR_TEXT"

inductive CorrectionError where
  | store (error : StoreError)
  | sqlite (violated : Constraint)
  | notAllowed
  | staleSource
  | alreadyCorrected
  | invalid (reason : String)
  | integrity
  deriving DecidableEq, Repr

def CorrectionError.code : CorrectionError → String
  | .notAllowed => "OCR_CORRECTION_NOT_ALLOWED"
  | .staleSource => "OCR_CORRECTION_STALE_SOURCE"
  | .alreadyCorrected => "OCR_CORRECTION_ALREADY_EXISTS"
  | .invalid _ => "OCR_CORRECTION_INVALID"
  | .integrity => "OCR_CORRECTION_INTEGRITY_FAILED"
  | .store _ | .sqlite _ => "OCR_CORRECTION_STORE_ERROR"

structure PageCorrection where
  pageNumber : Nat
  text : String
  deriving DecidableEq, Repr

structure SaveCorrection where
  runId : String
  expectedStateVersion : Nat
  sourceParsedHash : String
  pages : List PageCorrection

/-- A row of `ocr_text_corrections`. -/
structure OcrTextCorrection where
  documentId : String
  runId : String
  sourceDocumentId : String
  sourceRunId : String
  sourceVersion : Nat
  sourceParsedHash : String
  correctedParsedHash : String
  correctedParsed : ParsedDocument
  createdAt : DateTime

structure CorrectionStore where
  pipeline : Store
  corrections : List OcrTextCorrection

def CorrectionStore.empty : CorrectionStore :=
  ⟨Store.empty, []⟩

/-! ## Correcting pages -/

/-- The text that the first page of the number had, and the pages with the new text in it. -/
def replaceText (pageNumber : Nat) (text : String) :
    List ParsedPage → Option (String × List ParsedPage)
  | [] => none
  | page :: rest =>
    if page.pageNumber = pageNumber then
      some (page.text, { page with text := text } :: rest)
    else
      (replaceText pageNumber text rest).map fun replaced => (replaced.1, page :: replaced.2)

/-- The loop of `apply_pages`, and whether any text changed. -/
def applyEdits : List Nat → List PageCorrection → List ParsedPage →
    Except CorrectionError (Bool × List ParsedPage)
  | _, [], pages => return (false, pages)
  | seen, edit :: rest, pages => do
    refuseIf (edit.pageNumber ∈ seen) (.invalid "duplicate page")
    let (before, replaced) ← okOrElse (replaceText edit.pageNumber edit.text pages)
      (.invalid "unknown page")
    refuseIf (isBlank edit.text = true ∨ '\x00' ∈ edit.text.toList)
      (.invalid "page text must be nonempty and contain no NUL")
    let (changed, pages) ← applyEdits (edit.pageNumber :: seen) rest replaced
    return (decide (before ≠ edit.text) || changed, pages)

def isCorrectionWarning (warning : PipelineWarning) : Bool :=
  warning.code == correctionWarningCode

def correctionWarning : PipelineWarning :=
  ⟨correctionWarningCode,
    "This summary uses operator-corrected OCR text. Citations refer to that corrected text; " ++
      "compare it with the retained source PDF. Previously delivered results are unchanged.",
    some .parse⟩

def applyPages (parsed : ParsedDocument) (changes : List PageCorrection) :
    Except CorrectionError ParsedDocument := do
  refuseIf (changes = [] ∨ parsed.pages.length < changes.length)
    (.invalid "supply changed pages only")
  let (changed, pages) ← applyEdits [] changes parsed.pages
  refuseIf (changed = false) (.invalid "no text changed")
  refuseIf (maxCorrectedTextBytes < (pages.map (·.text.utf8ByteSize)).sum)
    (.invalid "corrected text exceeds 262144 UTF-8 bytes")
  return { parsed with
    pages := pages
    warnings :=
      if parsed.warnings.any isCorrectionWarning then parsed.warnings
      else parsed.warnings ++ [correctionWarning] }

/-! ## Saving a correction -/

section Saving

variable (codec : Codec)

/-- `sha256(to_vec(parsed))` in hexadecimal, as the artifact tables record it. -/
def parsedHash (parsed : ParsedDocument) : String :=
  codec.artifactHash .parsed parsed

def correctable : PipelineState → Bool
  | .complete | .completeWithWarnings | .failed | .parsed => true
  | _ => false

/-- The run that is corrected, its document and the text that was read from it. -/
def correctionSource (s : Store) (runId : String) :
    Except CorrectionError (PipelineRun × IngestedDocument × ParsedDocument) := do
  let run ← okOrElse (getPipelineRun s runId) (.store (.runNotFound runId))
  let document ← okOrElse (getDocument s run.documentId)
    (.store (.documentNotFound run.documentId))
  refuseIf (document.sourceType ≠ .ocrText ∨ correctable run.state = false) .notAllowed
  let parsed ← okOrElse (getParsedDocument s runId) .notAllowed
  refuseIf (parsed.sourceType ≠ .ocrText ∨ parsed.documentId ≠ document.documentId) .integrity
  return (run, document, parsed)

def loadForDocument (s : CorrectionStore) (documentId : String) :
    Except CorrectionError (Option ParsedDocument) :=
  match s.corrections.find? (·.documentId = documentId) with
  | none => .ok none
  | some row => do
    refuseIf (parsedHash codec row.correctedParsed ≠ row.correctedParsedHash ∨
        row.correctedParsed.documentId ≠ documentId ∨
        row.correctedParsed.sourceType ≠ .ocrText ∨
        row.correctedParsed.warnings.any isCorrectionWarning = false)
      .integrity
    return some row.correctedParsed

/-- The answer to a request whose document has been corrected before. -/
def answerExisting (s : CorrectionStore) (request : SaveCorrection) (parsed : ParsedDocument)
    (existing : OcrTextCorrection) : Except CorrectionError PipelineRun := do
  let loaded ← loadForDocument codec s existing.documentId
  let prior ← okOrElse loaded .integrity
  refuseIf (existing.sourceRunId ≠ request.runId ∨
      { parsed with documentId := existing.documentId } ≠ prior)
    .alreadyCorrected
  okOrElse (getPipelineRun s.pipeline existing.runId) .integrity

def insertCorrection (s : CorrectionStore) (row : OcrTextCorrection) :
    Except CorrectionError CorrectionStore := do
  refuseIf (row.sourceVersion = 0) (.sqlite .check)
  refuseIf (∃ other ∈ s.corrections, other.documentId = row.documentId) (.sqlite .primaryKey)
  refuseIf (∃ other ∈ s.corrections, other.runId = row.runId ∨
    other.sourceDocumentId = row.sourceDocumentId) (.sqlite .unique)
  refuseIf (row.documentId ∉ s.pipeline.documents ∨ row.runId ∉ s.pipeline.pipelineRuns ∨
    row.sourceDocumentId ∉ s.pipeline.documents ∨ row.sourceRunId ∉ s.pipeline.pipelineRuns)
    (.sqlite .foreignKey)
  return { s with corrections := s.corrections ++ [row] }

/-- The corrected document and its run, both new. -/
def createSuccessor (amb : Ambient) (request : SaveCorrection) (document : IngestedDocument)
    (parsed : ParsedDocument) (s : CorrectionStore) :
    Except CorrectionError (PipelineRun × CorrectionStore) := do
  let documentId := amb.newV4 5
  let createdAt := amb.now 5
  let corrected := { parsed with documentId := documentId }
  let (run, pipeline) ← (persistCorrectedDocument codec amb
    { document with documentId := documentId, createdAt := createdAt }
    (prepareReceivedRun (amb.newV4 6) documentId createdAt) corrected request.runId
    s.pipeline).mapError .store
  let s ← insertCorrection { s with pipeline := pipeline }
    ⟨documentId, run.runId, document.documentId, request.runId, request.expectedStateVersion,
      request.sourceParsedHash, parsedHash codec corrected, corrected, createdAt⟩
  return (run, s)

/-- Runs in one transaction, which a request that was answered before writes nothing in. -/
def save (amb : Ambient) (request : SaveCorrection) (s : CorrectionStore) :
    Except CorrectionError (PipelineRun × CorrectionStore) := do
  let (sourceRun, document, parsed) ← correctionSource s.pipeline request.runId
  refuseIf (sourceRun.stateVersion ≠ request.expectedStateVersion ∨
    parsedHash codec parsed ≠ request.sourceParsedHash) .staleSource
  let parsed ← applyPages parsed request.pages
  match s.corrections.find? (·.sourceDocumentId = document.documentId) with
  | some existing =>
    let run ← answerExisting codec s request parsed existing
    return (run, s)
  | none => createSuccessor codec amb request document parsed s

/-- One transaction: a correction's, or one of the pipeline's. -/
inductive CorrectionCall where
  | save (amb : Ambient) (request : SaveCorrection)
  | pipeline (call : Call)

def CorrectionCall.after (call : CorrectionCall) (s : CorrectionStore) : CorrectionStore :=
  match call with
  | .save amb request => (transaction (Pipeline.save codec amb request) s).2
  | .pipeline call => { s with pipeline := call.after codec s.pipeline }

def correctionMachine : Machine CorrectionStore CorrectionCall where
  init s := s = CorrectionStore.empty
  step s call t := t = call.after codec s

end Saving

/-! ## Parsing a corrected document -/

structure DocumentParser where
  id : String
  version : String
  parse : IngestedDocument → Except PipelineFailure ParsedDocument

namespace Parser

def parseFailure (code message : String) (recoverable : Bool) : PipelineFailure :=
  ⟨code, message, some .parse, recoverable⟩

def invalidParsedArtifact (message : String) : PipelineFailure :=
  parseFailure "INVALID_PARSED_ARTIFACT" message false

/-- The page checks of the parser's `validate_parsed_document`, from the given zero-based
index. -/
def validateParsedPages : Nat → List ParsedPage → Except PipelineFailure Unit
  | _, [] => return ()
  | index, page :: rest => do
    let expected ← okOrElse (toU32 (index + 1))
      (invalidParsedArtifact "The parsed page count exceeds the contract's page-number range")
    refuseIf (page.pageNumber ≠ expected)
      (invalidParsedArtifact "Parsed pages are not in canonical one-based order")
    refuseIf (isBlank page.text = true ∧
        (page.requiresVisualProcessing = false ∨ lacksNativeText page.warnings = false))
      (invalidParsedArtifact
        "A page without native text must preserve its visual-routing marker and warning")
    validateParsedPages (index + 1) rest

def validateParsedDocument (parsed : ParsedDocument) (document : IngestedDocument)
    (selected : DocumentParser) : Except PipelineFailure Unit := do
  refuseIf (parsed.documentId ≠ document.documentId)
    (invalidParsedArtifact "The parser returned an artifact for a different document")
  refuseIf (parsed.parserId ≠ selected.id ∨ parsed.parserVersion ≠ selected.version)
    (invalidParsedArtifact "The parser artifact identity does not match the selected parser")
  refuseIf (parsed.sourceType ≠ document.sourceType)
    (invalidParsedArtifact "The parser changed the document source provenance")
  validateParsedPages 0 parsed.pages

end Parser

inductive ParsePipelineError where
  | parserFailed (failure : PipelineFailure)
  | artifactPersistence (error : StoreError)
  | failurePersistence (primary : String) (persistence : StoreError)

/-- The texts that errors are displayed with. -/
structure ErrorDisplay where
  correction : CorrectionError → String
  store : StoreError → String

section Parsing

variable (codec : Codec) (display : ErrorDisplay) (selected : DocumentParser)

/-- A corrected text is not read from its source again. -/
def parserOutput (s : CorrectionStore) (document : IngestedDocument) :
    Except PipelineFailure ParsedDocument :=
  match loadForDocument codec s document.documentId with
  | .ok (some parsed) => .ok parsed
  | .ok none => selected.parse document
  | .error error => .error (Parser.parseFailure error.code (display.correction error) false)

def persistParserFailure (amb : Ambient) (runId : String) (expectedVersion : Nat)
    (failure : PipelineFailure) (s : CorrectionStore) :
    Except ParsePipelineError ParsedDocument × CorrectionStore :=
  match failParsing amb runId expectedVersion failure s.pipeline with
  | .ok (_, pipeline) => (.error (.parserFailed failure), { s with pipeline := pipeline })
  | .error persistence =>
    (.error (.failurePersistence (failure.code ++ ": " ++ failure.message) persistence), s)

/-- The work of a run that `start_parsing` moved; `completing` and `failing` are what its two
transactions read. -/
def parseStartedDocument (completing failing : Ambient) (runId : String)
    (parsingStateVersion : Nat) (document : IngestedDocument) (s : CorrectionStore) :
    Except ParsePipelineError ParsedDocument × CorrectionStore :=
  match parserOutput codec display selected s document with
  | .error failure => persistParserFailure failing runId parsingStateVersion failure s
  | .ok parsed =>
    match Parser.validateParsedDocument parsed document selected with
    | .error failure => persistParserFailure failing runId parsingStateVersion failure s
    | .ok () =>
      match completeParsing codec completing runId parsingStateVersion parsed
          (parsed.warnings ++ parsed.pages.flatMap (·.warnings)) s.pipeline with
      | .ok (_, pipeline) => (.ok parsed, { s with pipeline := pipeline })
      | .error persistence =>
        match failParsing failing runId parsingStateVersion
            (Parser.parseFailure "PARSED_ARTIFACT_PERSISTENCE_FAILED"
              "Parsed output could not be committed atomically" true) s.pipeline with
        | .ok (_, pipeline) =>
          (.error (.artifactPersistence persistence), { s with pipeline := pipeline })
        | .error refused =>
          (.error (.failurePersistence (display.store persistence) refused), s)

end Parsing

end DocumentSummarizer.Pipeline
