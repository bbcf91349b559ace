import DocumentSummarizer.Pipeline.ContractRendering

/-! # The stages of a contract extraction

Contract mode asks no model. What a stage stores is checked by making it anew from what the
stages before it stored.
-/

namespace DocumentSummarizer.Pipeline

open Library

/-- `version_supported` -/
def contractVersionSupported (version : String) : Bool :=
  decide (version ∈ [contractExtractionVersion, preHeadingVersion, previousContractVersion])

/-- `RUNTIME` -/
def contractRuntime : String := "deterministic-source-extraction"

def contractSourceWarning : PipelineWarning where
  code := "CONTRACT_SOURCE_EXTRACTION"
  message := "Contract clauses are extracted verbatim with source citations. They are not a " ++
    "legal interpretation; OCR-derived text still requires source review."
  stage := some .analyze

section Stages

variable (platform : TextPlatform) (unicode : Unicode) (chunked : ChunkedDocument)
  (normalized : NormalizedDocument)

def contractChunkAnalysis (evidence : List EvidenceItem) (chunk : DocumentChunk) :
    ChunkAnalysis :=
  let evidence := evidence.filter (·.chunkId = chunk.chunkId)
  ⟨chunk.chunkId, "\n\n".intercalate (evidence.map (·.exactQuote)), chunk.sourceSpans, evidence⟩

/-- `analyze_for_version`, in a run that nobody cancels. -/
def analyzeContract (version : String) : Interruptible AnalyzedDocument := do
  let (_, evidence) ← records platform unicode chunked normalized version
  let policy ← propagate (contractFurniturePolicy version)
  let furniture ← okOrElse (Furniture.forPolicy unicode normalized policy) .panicked
  return {
    documentId := normalized.documentId
    analysisVersion := version
    runtimeId := contractRuntime
    modelId := "none"
    chunks := chunked.chunks.map (contractChunkAnalysis evidence)
    warnings := normalized.warnings ++ furniture.warning.toList ++ [contractSourceWarning]
    omissions := []
    inspectedPages := normalized.nativePages }

/-- `validate_analysis` -/
def validateContractAnalysis (analyzed : AnalyzedDocument) : Interruptible Unit := do
  let again ← analyzeContract platform unicode chunked normalized analyzed.analysisVersion
  propagate (refuseIf (analyzed ≠ again) invalidContractExtraction)

/-- `synthesize` -/
def synthesizeContract (analyzed : AnalyzedDocument) : Interruptible SynthesizedDocument := do
  validateContractAnalysis platform unicode chunked normalized analyzed
  let (extraction, _) ← records platform unicode chunked normalized analyzed.analysisVersion
  let claims := contractClaims extraction
  let units ← propagate (renderUnits extraction claims (analyzed.chunks.flatMap (·.evidence)))
  return {
    contractExtraction := some extraction
    documentId := analyzed.documentId
    synthesisVersion := analyzed.analysisVersion
    runtimeId := contractRuntime
    modelId := "none"
    presentationMode := .structuredExtraction
    summaryText := "\n\n".intercalate (units.map (·.text))
    sourceChunkIds := chunked.chunks.map (·.chunkId)
    summaryClaims := []
    synthesisEvidence := []
    claims := claims
    warnings := analyzed.warnings }

/-- `validate_synthesis` -/
def validateContractSynthesis (synthesized : SynthesizedDocument) (analyzed : AnalyzedDocument) :
    Interruptible Unit := do
  let again ← synthesizeContract platform unicode chunked normalized analyzed
  propagate (refuseIf (synthesized ≠ again) invalidContractExtraction)

end Stages

section Anew

variable {platform : TextPlatform} {unicode : Unicode} {chunked : ChunkedDocument}
  {normalized : NormalizedDocument} {analyzed : AnalyzedDocument}
  {synthesized : SynthesizedDocument}

theorem validateContractSynthesis_ok :
    validateContractSynthesis platform unicode chunked normalized synthesized analyzed = .ok () ↔
      synthesizeContract platform unicode chunked normalized analyzed = .ok synthesized := by
  simp only [validateContractSynthesis, peel_ok, propagate, mapError_ok_iff, refuseIf_eq_ok,
    not_not]
  constructor
  · rintro ⟨again, made, same⟩
    rw [made, same]
  · exact fun made => ⟨synthesized, made, rfl⟩

theorem analyzeContract_version {version : String}
    (made : analyzeContract platform unicode chunked normalized version = .ok analyzed) :
    analyzed.analysisVersion = version := by
  simp only [analyzeContract, peel_ok, return_ok] at made
  obtain ⟨_, -, _, -, _, -, rfl⟩ := made
  rfl

theorem synthesizeContract_claims
    (made : synthesizeContract platform unicode chunked normalized analyzed = .ok synthesized) :
    synthesized.claims ≠ [] ∧ synthesized.summaryClaims = [] ∧
      synthesized.synthesisVersion = analyzed.analysisVersion := by
  simp only [synthesizeContract, records, peel_ok, return_ok, propagate, mapError_ok_iff,
    refuseIf_eq_ok] at made
  obtain ⟨_, -, ⟨extraction, _⟩, ⟨_, -, _, -, _, -, built, -, _, some_clause, _, -, same⟩, _, -,
    rfl⟩ := made
  obtain ⟨rfl, -⟩ := Prod.mk.inj same
  exact ⟨by simpa [contractClaims] using some_clause, rfl, rfl⟩

end Anew

end DocumentSummarizer.Pipeline
