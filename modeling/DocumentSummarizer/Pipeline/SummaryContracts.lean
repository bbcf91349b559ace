import DocumentSummarizer.Pipeline.Contracts

/-! # Summary contracts

The artifacts of the model-backed stages and the canonical tuples their
integrity hashes are taken over.
-/

namespace DocumentSummarizer.Pipeline

inductive ModelRuntimeKind where
  | ollamaNative
  | llamaCppGguf
  | inferenceGateway
  deriving DecidableEq, Repr

structure ModelStageProfileSnapshot where
  runtimeKind : ModelRuntimeKind
  profileId : String
  modelName : String
  modelDigest : String
  contextTokens : Nat
  tokenizerVersion : String
  deriving DecidableEq, Repr

structure ModelProfileSnapshot where
  version : Nat
  presetId : String
  analysis : ModelStageProfileSnapshot
  verification : ModelStageProfileSnapshot
  deriving DecidableEq, Repr

structure EvidenceItem where
  evidenceId : String
  chunkId : String
  blockId : String
  claimText : String
  exactQuote : String
  sourceSpan : SourceSpan
  deriving DecidableEq, Repr

structure ChunkAnalysis where
  chunkId : String
  summaryText : String
  sourceSpans : List SourceSpan
  evidence : List EvidenceItem
  deriving DecidableEq, Repr

structure CitedClaim where
  claimId : String
  text : String
  evidenceIds : List String
  deriving DecidableEq, Repr

inductive ClaimVerdict where
  | supported
  | unsupported
  | ambiguous
  deriving DecidableEq, Repr

structure ClaimVerification where
  claimId : String
  evidenceIds : List String
  verdict : ClaimVerdict
  deriving DecidableEq, Repr

inductive AnalysisOmissionOrigin where
  | scanNoise
  | datePageStamp
  | modelBareHeading
  | modelNoSubstantiveContent
  | paraphraseUnrepairable
  | quoteBoundaryUnusable
  deriving DecidableEq, Repr

inductive AnalysisOmissionReason where
  | nonSubstantivePageFurniture
  | noSubstantiveContent
  | paraphraseUnrepairable
  | quoteBoundaryUnusable
  deriving DecidableEq, Repr

structure AnalysisPageOmission where
  pageNumber : Nat
  chunkId : String
  reason : AnalysisOmissionReason
  origin : AnalysisOmissionOrigin
  filterVersion : String
  sourceFingerprint : String
  catalogFingerprint : Option String
  deriving DecidableEq, Repr

structure AnalyzedDocument where
  documentId : String
  analysisVersion : String
  runtimeId : String
  modelId : String
  chunks : List ChunkAnalysis
  warnings : List PipelineWarning
  omissions : List AnalysisPageOmission
  inspectedPages : List Nat
  deriving DecidableEq, Repr

inductive SummaryPresentationMode where
  | legacyClaimList
  | coherent
  | claimLedgerFallback
  | structuredExtraction
  deriving DecidableEq, Repr

inductive ContractTermCategory where
  | parties
  | payment
  | termRenewal
  | termination
  | insurance
  | liabilityIndemnity
  deriving DecidableEq, Repr

inductive ContractSelectionRule where
  | heading
  | openingBetween
  deriving DecidableEq, Repr

structure ContractSectionSelection where
  rule : ContractSelectionRule
  rootClauseId : String
  clauseIds : List String
  deriving DecidableEq, Repr

structure ContractKeyTerm where
  category : ContractTermCategory
  selections : List ContractSectionSelection
  deriving DecidableEq, Repr

structure ExtractedContractClause where
  clauseId : String
  heading : Option String
  text : String
  evidenceIds : List String
  deriving DecidableEq, Repr

structure ContractExtraction where
  clauses : List ExtractedContractClause
  keyTerms : List ContractKeyTerm
  deriving DecidableEq, Repr

structure SynthesizedDocument where
  contractExtraction : Option ContractExtraction
  documentId : String
  synthesisVersion : String
  runtimeId : String
  modelId : String
  presentationMode : SummaryPresentationMode
  summaryText : String
  sourceChunkIds : List String
  summaryClaims : List CitedClaim
  synthesisEvidence : List EvidenceItem
  claims : List CitedClaim
  warnings : List PipelineWarning
  deriving DecidableEq, Repr

structure VerifiedDocument where
  contractExtraction : Option ContractExtraction
  documentId : String
  verificationVersion : String
  synthesisAttemptOrdinal : Nat
  runtimeId : String
  modelId : String
  presentationMode : SummaryPresentationMode
  summaryText : String
  sourceChunkIds : List String
  summaryClaims : List CitedClaim
  synthesisEvidence : List EvidenceItem
  summaryClaimVerifications : List ClaimVerification
  claims : List CitedClaim
  claimVerifications : List ClaimVerification
  keyPointClaimIds : List String
  warnings : List PipelineWarning
  deriving DecidableEq, Repr

structure CitationArtifact where
  contractExtraction : Option ContractExtraction
  documentId : String
  citationVersion : String
  summaryIntegrityHash : String
  renderedText : String
  presentationMode : SummaryPresentationMode
  summaryClaims : List CitedClaim
  claims : List CitedClaim
  evidence : List EvidenceItem
  createdAt : DateTime
  integrityHash : String
  deriving DecidableEq, Repr

structure SummaryArtifact where
  contractExtraction : Option ContractExtraction
  documentId : String
  summaryVersion : String
  text : String
  warnings : List PipelineWarning
  createdAt : DateTime
  integrityHash : String
  deriving DecidableEq, Repr

/-- The canonical tuples that `calculate_integrity_hash` serializes. -/
inductive CanonicalTuple where
  | summary (documentId summaryVersion text : String) (warnings : List PipelineWarning)
      (createdAt : DateTime) (extraction : Option ContractExtraction)
  | extractionCitation (documentId citationVersion summaryIntegrityHash renderedText : String)
      (mode : SummaryPresentationMode) (summaryClaims claims : List CitedClaim)
      (evidence : List EvidenceItem) (createdAt : DateTime)
      (extraction : Option ContractExtraction)
  | coherentCitation (documentId citationVersion summaryIntegrityHash renderedText : String)
      (mode : SummaryPresentationMode) (summaryClaims claims : List CitedClaim)
      (evidence : List EvidenceItem) (createdAt : DateTime)
  | citation (documentId citationVersion summaryIntegrityHash renderedText : String)
      (claims : List CitedClaim) (evidence : List EvidenceItem) (createdAt : DateTime)
  deriving DecidableEq, Repr

def SummaryArtifact.canonical (summary : SummaryArtifact) : CanonicalTuple :=
  .summary summary.documentId summary.summaryVersion summary.text summary.warnings
    summary.createdAt summary.contractExtraction

def CitationArtifact.canonical (c : CitationArtifact) : CanonicalTuple :=
  if c.citationVersion = "5.0.0" then
    .extractionCitation c.documentId c.citationVersion c.summaryIntegrityHash c.renderedText
      c.presentationMode c.summaryClaims c.claims c.evidence c.createdAt c.contractExtraction
  else if c.citationVersion = "4.0.0" then
    .coherentCitation c.documentId c.citationVersion c.summaryIntegrityHash c.renderedText
      c.presentationMode c.summaryClaims c.claims c.evidence c.createdAt
  else
    .citation c.documentId c.citationVersion c.summaryIntegrityHash c.renderedText c.claims
      c.evidence c.createdAt

end DocumentSummarizer.Pipeline
