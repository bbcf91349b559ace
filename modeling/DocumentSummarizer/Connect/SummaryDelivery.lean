import DocumentSummarizer.Library.JsonText
import DocumentSummarizer.Pipeline.ContractRendering
import DocumentSummarizer.Pipeline.DeliveryLedger
import DocumentSummarizer.Pipeline.PageFurniture
import DocumentSummarizer.Connect.JobStore

/-! # Delivering a summary

The result of a job: the whole summary when the wire limits admit it, and otherwise the
longest prefix of whole claims, delivered only when it still covers the pages.
-/

namespace DocumentSummarizer.Connect

open Library Pipeline
open Ocr (InputArtifact ArtifactProvenance JobResult)

def outputMediaType : String := "application/vnd.local-connect.document-summary+json"
def maxSummaryTextBytes : Nat := maxDeliverySummaryTextBytes
def maxSummaryArtifactBytes : Nat := 2 * 1024 * 1024
def maxSummaryWarnings : Nat := 256

inductive ContractBuildError where
  | invalidSummary (reason : String)
  deriving DecidableEq

/-! ## The content as JSON -/

def provenanceJson (artifact : ArtifactProvenance) : String :=
  "\x7b\"artifact_id\":" ++ quote artifact.artifactId ++ ",\"media_type\":" ++
    quote artifact.mediaType ++ ",\"byte_size\":" ++ toString artifact.byteSize ++
    ",\"sha256\":" ++ quote artifact.sha256 ++ "\x7d"

def warningJson (warning : ConnectWarning) : String :=
  "\x7b\"code\":" ++ quote warning.code ++ ",\"message\":" ++ quote warning.message ++ "\x7d"

def contentJson (content : SummaryContent) : String :=
  "\x7b\"summary_version\":" ++ quote content.summaryVersion ++ ",\"text\":" ++
    quote content.text ++ ",\"warnings\":[" ++
    ",".intercalate (content.warnings.map warningJson) ++ "],\"input_artifact\":" ++
    provenanceJson content.inputArtifact ++ "\x7d"

/-! ## Building a result -/

/-- `major.minor`, and `1.0` of a version without a dot. -/
def capabilitySummaryVersion (internal : String) : String :=
  match internal.toList.span (· ≠ '.') with
  | (_, []) => "1.0"
  | (major, _ :: rest) => String.ofList (major ++ '.' :: rest.takeWhile (· ≠ '.'))

def wireWarning (warning : PipelineWarning) : ConnectWarning :=
  ⟨warning.code, warning.message⟩

def invalidWireWarning (warning : ConnectWarning) : Bool :=
  warning.code.isEmpty || decide (100 < warning.code.utf8ByteSize) ||
    !warning.code.toList.all (fun c => c.isUpper || c.isDigit || c == '_') ||
    warning.message.isEmpty || decide (1000 < warning.message.utf8ByteSize)

def summaryContent (input : InputArtifact) (summaryVersion text : String)
    (warnings : List PipelineWarning) : SummaryContent where
  summaryVersion := capabilitySummaryVersion summaryVersion
  text := text
  warnings := warnings.map wireWarning
  inputArtifact := ArtifactProvenance.fromInput input

/-- The one output of a result, with the length and digest of its content as it is sent. -/
def summaryOutput (codec : Codec) (artifactId : String) (content : SummaryContent) :
    SummaryOutput where
  artifactId := artifactId
  mediaType := outputMediaType
  byteSize := (asBytes (contentJson content)).length
  sha256 := codec.sha256Hex (asBytes (contentJson content))
  content := content

def buildSummaryResult (codec : Codec) (artifactId : String) (input : InputArtifact)
    (summaryVersion text : String) (warnings : List PipelineWarning) :
    Except ContractBuildError (JobResult SummaryOutput) := do
  refuseIf (text = "" ∨ maxSummaryTextBytes < text.utf8ByteSize)
    (.invalidSummary "summary text is empty or exceeds the byte limit")
  let content := summaryContent input summaryVersion text warnings
  refuseIf (maxSummaryWarnings < content.warnings.length ∨
      content.warnings.any invalidWireWarning = true)
    (.invalidSummary "summary warnings exceed count or field limits")
  refuseIf (contentJson content = "" ∨
      maxSummaryArtifactBytes < (contentJson content).utf8ByteSize)
    (.invalidSummary "summary artifact exceeds the byte limit")
  return ⟨[summaryOutput codec artifactId content]⟩

def truncatedForDeliveryCode : String := "SUMMARY_TRUNCATED_FOR_DELIVERY"

/-- The warnings of a shortened delivery. -/
def truncationWarnings (warnings : List PipelineWarning) : List PipelineWarning :=
  if warnings.any (·.code = truncatedForDeliveryCode) then
    warnings
  else
    warnings ++ [⟨truncatedForDeliveryCode, "The delivered Connect result contains the largest " ++
      "whole-claim prefix that fits the v1 byte limits", none⟩]

/-- How many lines fit the text limit, `bytes` of `count` of them already taken. -/
def fittingLines : Nat → Nat → List String → Nat
  | _, count, [] => count
  | bytes, count, line :: rest =>
    let projected := bytes + (if 0 < count then 2 else 0) + line.utf8ByteSize
    if maxSummaryTextBytes < projected then count
    else fittingLines projected (count + 1) rest

/-- `for count in (1..=prefix_count).rev()` -/
def longestBuilt (build : Nat → Except ContractBuildError (JobResult SummaryOutput)) :
    Nat → Except ContractBuildError (JobResult SummaryOutput × Nat)
  | 0 => .error (.invalidSummary
      "no nonempty whole-claim summary prefix fits the v1 byte limits")
  | count + 1 =>
    match build (count + 1) with
    | .ok result => .ok (result, count + 1)
    | .error _ => longestBuilt build count

def fromSummaryClaimLines (codec : Codec) (artifactId : String) (input : InputArtifact)
    (summary : SummaryArtifact) (claimLines : List String) :
    Except ContractBuildError (JobResult SummaryOutput × Nat) := do
  refuseIf (claimLines = [] ∨ "" ∈ claimLines ∨ "\n\n".intercalate claimLines ≠ summary.text)
    (.invalidSummary "summary claim boundaries do not match canonical text")
  match buildSummaryResult codec artifactId input summary.summaryVersion summary.text
      summary.warnings with
  | .ok result => return (result, claimLines.length)
  | .error _ =>
    longestBuilt (fun count => buildSummaryResult codec artifactId input summary.summaryVersion
      ("\n\n".intercalate (claimLines.take count)) (truncationWarnings summary.warnings))
      (fittingLines 0 0 claimLines)

/-! ## Pages that a delivery covers -/

def presentedClaims (mode : SummaryPresentationMode) (claims summaryClaims : List CitedClaim) :
    List CitedClaim :=
  match mode with
  | .coherent => summaryClaims
  | .claimLedgerFallback | .legacyClaimList | .structuredExtraction => claims

/-- The pages of the evidence that the claims cite; `none` when a claim cites no evidence known. -/
def claimPages (claims : List CitedClaim) (evidence : List EvidenceItem) : Option (Finset Nat) := do
  let cited ← (claims.flatMap (·.evidenceIds)).mapM (findEvidence evidence)
  return (cited.flatMap fun item =>
    List.range' item.sourceSpan.pageStart
      (item.sourceSpan.pageEnd + 1 - item.sourceSpan.pageStart)).toFinset

/-- The pages whose omission takes them out of the total. -/
def materialOmissions (omissions : List AnalysisPageOmission) (citedPages : Finset Nat) :
    Finset Nat :=
  (((remainingPageOmissions omissions citedPages).filter fun omission =>
    omission.reason = .nonSubstantivePageFurniture ∨
      omission.reason = .noSubstantiveContent).map (·.pageNumber)).toFinset

/-- The totals of native pages and of cited ones, the excluded ones in neither. -/
def coverageMet (nativePages citedPages : Finset Nat) (omissions : List AnalysisPageOmission) :
    Bool :=
  let adjustedTotal := nativePages.card -
    (materialOmissions omissions citedPages ∩ nativePages).card
  decide (citedPages.card ≤ adjustedTotal) && decide (nativePages.card ≤ citedPages.card * 2) &&
    decide (0 < adjustedTotal) && decide (adjustedTotal * 3 ≤ citedPages.card * 5)

def deliveryPageCoverageWithWarnings (unicode : Unicode) (citedPages : Finset Nat)
    (omissions : List AnalysisPageOmission) (normalized : NormalizedDocument)
    (warnings : List PipelineWarning) : Option Bool :=
  let nativePages := normalized.nativePages.toFinset
  if nativePages = ∅ ∨ ¬ citedPages ⊆ nativePages then
    some false
  else if omissions.any (·.pageNumber ∉ nativePages) then
    some false
  else do
    let excluded ← furnitureCoverageExclusions unicode warnings normalized
    return coverageMet (nativePages \ excluded) (citedPages \ excluded) omissions

/-- The claims that the first `count` units of a delivery show. -/
def deliveredClaims (citations : CitationArtifact) (count : Nat) : Option (List CitedClaim) :=
  match citations.contractExtraction with
  | some extraction =>
    match renderUnits extraction citations.claims citations.evidence with
    | .error _ => none
    | .ok units =>
      if count = 0 ∨ units.length < count then
        none
      else
        some (citations.claims.filter
          (·.claimId ∈ (units.take count).flatMap (·.clauseIds)))
  | none =>
    let presented := presentedClaims citations.presentationMode citations.claims
      citations.summaryClaims
    if count = 0 ∨ presented.length < count then none else some (presented.take count)

def deliveryClaimPrefixCoverageSatisfied (unicode : Unicode) (citations : CitationArtifact)
    (deliveredClaimCount : Nat) (omissions : List AnalysisPageOmission)
    (normalized : NormalizedDocument) (warnings : List PipelineWarning) : Option Bool :=
  match deliveredClaims citations deliveredClaimCount with
  | none => some false
  | some delivered =>
    match claimPages delivered citations.evidence with
    | none => some false
    | some citedPages =>
      deliveryPageCoverageWithWarnings unicode citedPages omissions normalized warnings

/-! ## Completing a job -/

/-- A line for each unit that a delivery does not break. -/
def citationLines (artifact : CitationArtifact) : Except PipelineFailure (List String) :=
  match artifact.contractExtraction with
  | some extraction => do
    let units ← renderUnits extraction artifact.claims artifact.evidence
    return units.map (·.text)
  | none =>
    renderClaimLines (presentedClaims artifact.presentationMode artifact.claims
      artifact.summaryClaims) artifact.evidence

def renderCitationClaimLines (artifact : CitationArtifact) :
    Except PipelineFailure (List String) := do
  let lines ← citationLines artifact
  refuseIf ("\n\n".intercalate lines ≠ artifact.renderedText)
    (stageFailure .verify "INVALID_CITATION_ARTIFACT"
      "Citation claim boundaries do not reproduce the canonical rendered summary" false)
  return lines

inductive ProcessJobError where
  | service (failure : PipelineFailure)
  | contract (error : ContractBuildError)
  | connectStore (error : ConnectStoreError)

/-- The answer, `none` where the page reading would stop the process. -/
def persistCompletedSummary (codec : Codec) (unicode : Unicode) (artifactId : String)
    (now : DateTime) (job : StoredConnectJob) (summary : SummaryArtifact)
    (citations : CitationArtifact) (omissions : List AnalysisPageOmission)
    (normalized : NormalizedDocument) (s : JobStore) :
    Option (Except ProcessJobError Unit × JobStore) :=
  match renderCitationClaimLines citations with
  | .error failure => some (.error (.service failure), s)
  | .ok claimLines =>
    match fromSummaryClaimLines codec artifactId job.input summary claimLines with
    | .error error => some (.error (.contract error), s)
    | .ok (result, deliveredClaimCount) => do
      let covered ← deliveryClaimPrefixCoverageSatisfied unicode citations deliveredClaimCount
        omissions normalized summary.warnings
      if covered = false then
        return (.error (.contract (.invalidSummary
          "delivered claim prefix does not satisfy Connect page coverage")), s)
      else
        match markCompleted now job.jobId result s with
        | (.error error, s) => return (.error (.connectStore error), s)
        | (.ok _, s) => return (.ok (), s)

end DocumentSummarizer.Connect
