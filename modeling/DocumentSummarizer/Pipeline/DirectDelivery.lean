import DocumentSummarizer.Pipeline.ContractRendering
import DocumentSummarizer.Pipeline.QuoteCatalog

/-! # Direct delivery

The analysis keeps one claim of a page and counts the bytes of the ledger that the
claims will be rendered as.  A claim that would pass the delivery ceiling ends the
analysis.  Direct synthesis renders the claims in source order, verification
removes claims, and the finished summary is checked against the ceiling again.
-/

namespace DocumentSummarizer.Pipeline

open Library

/-! ## Policy and warnings -/

structure SummaryDeliveryPolicy where
  maxSummaryTextBytes : Nat
  selectKeyPoints : Bool
  deriving DecidableEq, Repr

def maxDeliverySummaryTextBytes : Nat := 1024 * 1024

def SummaryDeliveryPolicy.connect : SummaryDeliveryPolicy :=
  ⟨maxDeliverySummaryTextBytes, false⟩

def directSynthesisVersion : String := "5.0.0"

def maxAnalysisClaimCharacters : Nat := 384

def summaryDeliveryLimitExceeded (stage : PipelineStage) (message : String) : PipelineFailure :=
  stageFailure stage "SUMMARY_DELIVERY_LIMIT_EXCEEDED" message false

def deliveryTruncationWarning : PipelineWarning :=
  ⟨"SUMMARY_TRUNCATED_FOR_DELIVERY",
    "Connect delivery byte ceiling reached; later page analysis was not scheduled", some .analyze⟩

def quoteBoundaryWarning (affectedPages omittedSourceUnits : Nat) : PipelineWarning :=
  let unitLabel := if omittedSourceUnits = 1 then "source unit" else "source units"
  let pageLabel := if affectedPages = 1 then "inspected page" else "inspected pages"
  ⟨"ANALYSIS_QUOTE_BOUNDARY_OMITTED",
    toString omittedSourceUnits ++ " " ++ unitLabel ++ " on " ++ toString affectedPages ++ " " ++
      pageLabel ++ " had no safe complete quotation within the " ++
      toString maxAnalysisQuoteCharacters ++
      "-character limit and remain in coverage denominators", some .analyze⟩

/-! ## Coverage -/

def remainingPageOmissions (omissions : List AnalysisPageOmission) (citedPages : Finset Nat) :
    List AnalysisPageOmission :=
  omissions.filter (·.pageNumber ∉ citedPages)

/-- `delivery_page_coverage_satisfied`; without warnings no page is excluded as furniture. -/
def deliveryPageCoverageSatisfied (citedPages : Finset Nat)
    (omissions : List AnalysisPageOmission) (normalized : NormalizedDocument) : Bool :=
  let nativePages := normalized.nativePages.toFinset
  if nativePages = ∅ ∨ ¬ citedPages ⊆ nativePages then
    false
  else if omissions.any (·.pageNumber ∉ nativePages) then
    false
  else
    let materialOmissions := (((remainingPageOmissions omissions citedPages).filter fun omission =>
      omission.reason = .nonSubstantivePageFurniture ∨
        omission.reason = .noSubstantiveContent).map (·.pageNumber)).toFinset ∩ nativePages
    let adjustedTotal := nativePages.card - materialOmissions.card
    decide (citedPages.card ≤ adjustedTotal) && decide (nativePages.card ≤ citedPages.card * 2) &&
      decide (0 < adjustedTotal) && decide (adjustedTotal * 3 ≤ citedPages.card * 5)

/-! ## Analysis -/

/-- What the analysis has kept so far. -/
structure AnalysisPass where
  analyzed : AnalyzedDocument
  count : Nat
  projectedDeliveryBytes : Nat
  quoteBoundaryAffectedPages : Nat
  quoteBoundaryOmittedUnits : Nat
  deriving DecidableEq, Repr

inductive PageOutcome where
  | omitted (omission : AnalysisPageOmission)
  /-- A selection and a paraphrase, as the response that evidence is made of. -/
  | answered (chunkIndex : Nat) (scope : AnalysisScope) (response : Option RawEvidenceResponse)
  deriving DecidableEq, Repr

/-- What the analysis takes from the model runtime and from the code around it: its admission,
the units that the scope of a page omits, what the selection and the paraphrase of a page come
to, and the final validation. -/
structure AnalysisRuntime where
  runtimeId : String
  modelId : String
  admission : Interruptible Unit
  omittedSourceUnits : AnalysisPass → Nat → Interruptible Nat
  inspect : AnalysisPass → Nat → Interruptible PageOutcome
  textLayerRisk : NormalizedDocument → Bool
  validate : AnalyzedDocument → Interruptible Unit

def AnalyzedDocument.evidence (analyzed : AnalyzedDocument) : List EvidenceItem :=
  analyzed.chunks.flatMap (·.evidence)

def AnalyzedDocument.warn (analyzed : AnalyzedDocument) (warns : Prop) [Decidable warns]
    (code message : String) : AnalyzedDocument :=
  if warns then { analyzed with warnings := analyzed.warnings ++ [⟨code, message, some .analyze⟩] }
  else analyzed

/-- The line of one item of evidence. -/
def deliveryLine (item : EvidenceItem) : String :=
  item.claimText ++ " " ++ citationLabel [item.sourceSpan]

namespace AnalysisPass

variable (pass : AnalysisPass)

/-- A page is inspected and the source units that it omits are counted. -/
def inspected (page omittedSourceUnits : Nat) : Except PipelineFailure AnalysisPass := do
  let analyzed : AnalyzedDocument := { pass.analyzed with
    inspectedPages := pass.analyzed.inspectedPages ++ [page] }
  if 0 < omittedSourceUnits then do
    let omitted ← okOrElse (checkedAdd pass.quoteBoundaryOmittedUnits omittedSourceUnits)
      (invalidEvidenceResponse "Quote-boundary omission count exceeds its range" true)
    return { pass with
      analyzed := analyzed
      quoteBoundaryAffectedPages := pass.quoteBoundaryAffectedPages + 1
      quoteBoundaryOmittedUnits := omitted }
  else
    return { pass with analyzed := analyzed }

def withOmission (omission : AnalysisPageOmission) : AnalysisPass :=
  { pass with analyzed := { pass.analyzed with
    omissions := pass.analyzed.omissions ++ [omission] } }

def truncate : AnalysisPass :=
  { pass with analyzed := { pass.analyzed with
    warnings := pass.analyzed.warnings ++ [deliveryTruncationWarning] } }

def retain (chunkIndex : Nat) (materialized : List EvidenceItem) (projected : Nat) :
    AnalysisPass :=
  { pass with
    analyzed := { pass.analyzed with
      chunks := pass.analyzed.chunks.modify chunkIndex fun chunk =>
        { chunk with evidence := chunk.evidence ++ materialized } }
    count := pass.count + 1
    projectedDeliveryBytes := projected }

/-- The bytes of the ledger with one more line. -/
def projectedWith (line : String) : Option Nat :=
  (checkedAdd pass.projectedDeliveryBytes (if 0 < pass.count then 2 else 0)).bind
    (checkedAdd · line.utf8ByteSize)

def retainedPages : Finset Nat :=
  (pass.analyzed.evidence.map (·.sourceSpan.pageStart)).toFinset

end AnalysisPass

section Analysis

variable (platform : TextPlatform) (tables : SentenceTables) (runtime : AnalysisRuntime)
  (chunked : ChunkedDocument) (normalized : NormalizedDocument)
  (deliveryPolicy : Option SummaryDeliveryPolicy)

/-- The evidence of an answered page; the chunk's evidence so far numbers it. -/
def materialize (pass : AnalysisPass) (chunkIndex : Nat) (scope : AnalysisScope)
    (response : Option RawEvidenceResponse) : Interruptible (List EvidenceItem) := do
  let chunk ← indexed chunked.chunks chunkIndex
  let analysis ← indexed pass.analyzed.chunks chunkIndex
  parseEvidenceResponse platform analysisVersion chunk normalized tables chunked.documentId response
    scope analysis.evidence.length

/-- The end of the loop at a claim that passes the ceiling. -/
def stopForDelivery (pass : AnalysisPass) : Except PipelineFailure AnalysisPass := do
  refuseIf (pass.count = 0) (summaryDeliveryLimitExceeded .analyze
    "The configured delivery byte ceiling cannot fit one whole rendered claim")
  refuseIf (deliveryPageCoverageSatisfied pass.retainedPages pass.analyzed.omissions normalized =
      false)
    (summaryDeliveryLimitExceeded .analyze ("The delivery byte ceiling was reached before the " ++
      "retained prefix satisfied page coverage"))
  return pass.truncate

/-- The loop over the plan. -/
def analyzePages (target : Nat) : List Nat → AnalysisPass → Interruptible AnalysisPass
  | [], pass => .ok pass
  | page :: rest, pass =>
    if pass.count = target then
      .ok pass
    else do
      let omittedSourceUnits ← runtime.omittedSourceUnits pass page
      let pass ← propagate (pass.inspected page omittedSourceUnits)
      let outcome ← runtime.inspect pass page
      match outcome with
      | .omitted omission => analyzePages target rest (pass.withOmission omission)
      | .answered chunkIndex scope response => do
        let materialized ← materialize platform tables chunked normalized pass chunkIndex scope
          response
        let evidence ← okOrElse materialized.head? (.failure (invalidEvidenceResponse
          "A successful page paraphrase must materialize exactly one evidence item" true))
        let projected ← okOrElse (pass.projectedWith (deliveryLine evidence))
          (.failure (stageFailure .analyze "SUMMARY_DELIVERY_LIMIT_INVALID"
            "Projected delivery bytes exceed the supported arithmetic range" false))
        if deliveryPolicy.any fun policy => policy.maxSummaryTextBytes < projected then
          propagate (stopForDelivery normalized pass)
        else
          analyzePages target rest (pass.retain chunkIndex materialized projected)

/-- The planned pages, those that are selected first, and how many claims are aimed at. -/
def versionedPlan (version : String) : Interruptible (List Nat × Nat) := do
  let selected ← versionedAnalysisSelectedPages normalized version
  return (normalized.nativePages.filter (· ∈ selected) ++
    normalized.nativePages.filter (· ∉ selected), selected.card)

def initialPass : AnalysisPass where
  analyzed := {
    documentId := chunked.documentId
    analysisVersion := analysisVersion
    runtimeId := runtime.runtimeId
    modelId := runtime.modelId
    chunks := chunked.chunks.map fun chunk => ⟨chunk.chunkId, "", chunk.sourceSpans, []⟩
    warnings := chunked.warnings ++ chunked.chunks.flatMap (·.warnings)
    omissions := []
    inspectedPages := [] }
  count := 0
  projectedDeliveryBytes := 0
  quoteBoundaryAffectedPages := 0
  quoteBoundaryOmittedUnits := 0

/-- The texts and the warnings that follow the loop. -/
def finishAnalysis (target : Nat) (pass : AnalysisPass) : AnalyzedDocument :=
  let analyzed : AnalyzedDocument := { pass.analyzed with
    chunks := pass.analyzed.chunks.map fun chunk =>
      { chunk with summaryText := "\n".intercalate (chunk.evidence.map (·.claimText)) } }
  let analyzed := analyzed.warn (analyzed.omissions ≠ []) "ANALYSIS_PAGE_OMITTED"
    (toString analyzed.omissions.length ++ (" inspected pages omitted with source-bound " ++
      "materiality or technical outcomes; report raw and omission-adjusted coverage separately"))
  let longClaims := (analyzed.evidence.filter fun item =>
    maxAnalysisClaimCharacters < item.claimText.length).length
  let analyzed := analyzed.warn (0 < longClaims) "LONG_CLAIM"
    (toString longClaims ++ (" complete claims exceeded the 384-character generation target " ++
      "and were retained for verification"))
  let technicalOmissions := (analyzed.omissions.filter
    (·.origin = .paraphraseUnrepairable)).length
  let analyzed := analyzed.warn (0 < technicalOmissions) "PARAPHRASE_UNREPAIRABLE"
    (toString technicalOmissions ++ (" inspected pages could not produce a complete bounded " ++
      "paraphrase after one repair and remain in coverage denominators"))
  let boundary := quoteBoundaryWarning pass.quoteBoundaryAffectedPages
    pass.quoteBoundaryOmittedUnits
  let analyzed := analyzed.warn (0 < pass.quoteBoundaryOmittedUnits) boundary.code boundary.message
  let analyzed := analyzed.warn (runtime.textLayerRisk normalized = true)
    "OCR_TEXT_LAYER_STRUCTURE_RISK"
    ("Claims reflect the extracted text layer; text-layer artifacts indicate that table or " ++
      "layout relationships may have been lost")
  analyzed.warn
    (pass.count < target ∧ ∀ warning ∈ analyzed.warnings,
      warning.code ≠ "SUMMARY_TRUNCATED_FOR_DELIVERY")
    "SUMMARY_COVERAGE_SHORTFALL"
    "All native-text pages inspected without meeting retained-evidence target"

/-- `pages::analyze` up to the end of its loop, with the target of its plan. -/
def analyzeLoop : Interruptible (Nat × AnalysisPass) := do
  runtime.admission
  propagate (Analysis.validateChunkedDocument chunked)
  propagate (validateNormalizedChunkBoundary normalized chunked)
  let (plan, target) ← versionedPlan normalized analysisVersion
  let pass ← analyzePages platform tables runtime chunked normalized deliveryPolicy target plan
    (initialPass runtime chunked)
  return (target, pass)

/-- `pages::analyze` -/
def analyze : Interruptible AnalyzedDocument := do
  let (target, pass) ← analyzeLoop platform tables runtime chunked normalized deliveryPolicy
  let analyzed := finishAnalysis runtime normalized target pass
  runtime.validate analyzed
  return analyzed

end Analysis

/-! ## Synthesis, verification and completion -/

section Ledger

variable (platform : TextPlatform)

def deterministicClaimId (documentId synthesisVersion : String) (index : Nat) (text : String)
    (evidenceIds : List String) : String :=
  deterministicId platform "claim"
    ([documentId, synthesisVersion, toString index, text] ++ evidenceIds)

/-- `materialize_cited_claims` over texts with the identities of their evidence. -/
def materializeCitedClaims (documentId synthesisVersion : String) :
    List String → List ((String × List String) × Nat) → Except PipelineFailure (List CitedClaim)
  | _, [] => .ok []
  | claimIds, ((text, evidenceIds), index) :: rest => do
    let claimId := deterministicClaimId platform documentId synthesisVersion index text evidenceIds
    refuseIf (claimId ∈ claimIds) (stageFailure .synthesize "MODEL_CLAIMS_RESPONSE_INVALID"
      "Summary claim identities must be unique" false)
    let later ← materializeCitedClaims documentId synthesisVersion (claimId :: claimIds) rest
    return ⟨claimId, text, evidenceIds⟩ :: later

def directEvidenceCapacityInvalid : PipelineFailure :=
  stageFailure .synthesize "DIRECT_EVIDENCE_CAPACITY_INVALID"
    "Direct synthesis requires between one and 512 retained evidence items" false

/-- `sort_by_key` on the first page -/
def sourceOrdered (evidence : List EvidenceItem) : List EvidenceItem :=
  evidence.insertionSort fun a b => a.sourceSpan.pageStart ≤ b.sourceSpan.pageStart

def sourceOrderedClaims (analyzed : AnalyzedDocument) :
    Except PipelineFailure (List CitedClaim) := do
  refuseIf (analyzed.evidence = [] ∨ directMaxClaims < analyzed.evidence.length)
    directEvidenceCapacityInvalid
  materializeCitedClaims platform analyzed.documentId directSynthesisVersion []
    ((sourceOrdered analyzed.evidence).map fun item =>
      (item.claimText, [item.evidenceId])).zipIdx

def renderCitedSummary (claims : List CitedClaim) (analyzed : AnalyzedDocument) :
    Except PipelineFailure String :=
  (renderClaimLines claims analyzed.evidence).map ("\n\n".intercalate ·)

/-- The claims that verification leaves. -/
def supportedClaims (claims : List CitedClaim) (verifications : List ClaimVerification) :
    List CitedClaim :=
  ((claims.zip verifications).filter fun verified => verified.2.verdict = .supported).map (·.1)

/-- The check of a finished summary against the ceiling. -/
def checkDeliveryLimit (deliveryPolicy : Option SummaryDeliveryPolicy) (text : String) :
    Except PipelineFailure Unit :=
  refuseIf (deliveryPolicy.any fun policy => policy.maxSummaryTextBytes < text.utf8ByteSize)
    (summaryDeliveryLimitExceeded .verify
      "The supported summary exceeds the configured delivery byte ceiling")

/-- The text that direct delivery completes with, from the verdicts on its claims. -/
def deliverDirectly (deliveryPolicy : Option SummaryDeliveryPolicy) (analyzed : AnalyzedDocument)
    (verifications : List ClaimVerification) : Except PipelineFailure String := do
  let claims ← sourceOrderedClaims platform analyzed
  let text ← renderCitedSummary (supportedClaims claims verifications) analyzed
  checkDeliveryLimit deliveryPolicy text
  return text

end Ledger

end DocumentSummarizer.Pipeline
