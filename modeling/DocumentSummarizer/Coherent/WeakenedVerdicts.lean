import DocumentSummarizer.Coherent.VerdictRuns
import DocumentSummarizer.Pipeline.ContractPresentation

/-! # What a supported claim rests on

The verdicts that `verify` leaves are those of the verifier, weakened by the checks after it.
-/

namespace DocumentSummarizer.Coherent

open DocumentSummarizer.Library DocumentSummarizer.Pipeline DocumentSummarizer.Pipeline.Gateway

/-- The batches are the claims, each claim in one of them. -/
structure CutOnce (batches : List VerificationBatch) (claims : List CitedClaim) : Prop where
  whole : batches.flatMap (·.claims) = claims
  once : ∀ claim ∈ claims, ∃! k : Nat, ∃ batch, batches[k]? = some batch ∧ claim ∈ batch.claims

theorem cutOnce_of_nodup {batches : List VerificationBatch} {claims : List CitedClaim}
    (whole : batches.flatMap (·.claims) = claims) (distinct : (claims.map (·.claimId)).Nodup) :
    CutOnce batches claims :=
  ⟨whole, fun _ mem => one_batch whole distinct.of_map mem⟩

section Final

variable {runtime : VerifierRuntime} {readers : VerdictReaders} {context : VerificationContext}
  {synthesized : SynthesizedDocument}

/-- What stands behind a claim of the ledger that is supported in the end. -/
structure LedgerSupported (runtime : VerifierRuntime) (readers : VerdictReaders)
    (context : VerificationContext) (synthesized : SynthesizedDocument)
    (requests : List ModelRequest) (batches : List VerificationBatch) (claim : CitedClaim) :
    Prop where
  said : Judged runtime readers.fromVerdicts context.generationSeed requests batches claim
    ⟨claim.claimId, claim.evidenceIds, .supported⟩
  fidelity : synthesized.presentationMode = .claimLedgerFallback →
    ∃ cited, List.Forall₂ (fun evidenceId item =>
      context.ledgerEvidence.reverse.find? (·.evidenceId = evidenceId) = some item)
      claim.evidenceIds cited ∧ context.fidelitySupported claim.text cited = true

variable {requests : List ModelRequest} {batches : List VerificationBatch} {claim : CitedClaim}
  {final : ClaimVerification}

theorem Judged.supported {fromStr : String → Option RawVerificationResponse}
    {generationSeed : Nat} {said : ClaimVerification}
    (h : Judged runtime fromStr generationSeed requests batches claim said)
    (stands : said.verdict = .supported) :
    Judged runtime fromStr generationSeed requests batches claim
      ⟨claim.claimId, claim.evidenceIds, .supported⟩ := by
  obtain ⟨batch, mem, inside, ordinal, response, raw, heard, read, perm, answers⟩ := h.answered
  refine ⟨batch, mem, inside, ordinal, response, raw, heard, read, perm, rfl, rfl, ?_⟩
  rw [← stands]
  exact answers.verdict

theorem LedgerOutcome.supported
    (h : LedgerOutcome runtime readers context synthesized requests batches claim final)
    (stands : final.verdict = .supported) :
    LedgerSupported runtime readers context synthesized requests batches claim := by
  obtain ⟨said, judged, guard⟩ := h.steps
  split at guard
  · obtain ⟨before, fidelity⟩ := guard.supported stands
    exact ⟨judged.supported before, fun _ => fidelity⟩
  · next other =>
      rw [guard] at stands
      exact ⟨judged.supported stands, fun fallback => absurd fallback other⟩

/-- A contract extraction that `verify` accepts was made again, and no model was asked. -/
theorem verifyContract_ok {s s' : Conversation} {ledger summary : List ClaimVerification}
    (run : verifyContract runtime context synthesized s = .ok (ledger, summary) s') :
    s'.requests = s.requests ∧ ledger = synthesized.claims.map supportedClaim ∧ summary = [] ∧
      synthesized.summaryClaims = [] ∧
      synthesizeContract context.platform context.unicode context.chunked context.normalized
        context.analyzed = .ok synthesized := by
  simp only [verifyContract, bind_ok_iff, adaptExcept_ok_iff, pureStep_ok_iff, pure_ok_iff,
    Prod.mk.injEq] at run
  obtain ⟨_, s₁, checked, _, _, ⟨valid, rfl⟩, ⟨rfl, rfl⟩, rfl⟩ := run
  have made := validateContractSynthesis_ok.mp valid
  exact ⟨checkCancellation_requests checked, rfl, rfl, (synthesizeContract_claims made).2.1, made⟩

/-- A claim is supported in the end only if the verifier said so of it in its one batch and every
later check of it passed; a check takes one verdict for every pair, in any order, or fails. The
ledger of a contract extraction is supported unasked, as the document made again. -/
theorem verdicts_only_weakened (readsBack : ReadsBack readers.fromVerdicts) {s s' : Conversation}
    {ledger summary : List ClaimVerification}
    (run : verify runtime readers context synthesized s = .ok (ledger, summary) s') :
    (contractVersionSupported synthesized.synthesisVersion = true →
      s'.requests = s.requests ∧ ledger = synthesized.claims.map supportedClaim ∧ summary = [] ∧
        synthesized.summaryClaims = [] ∧
        synthesizeContract context.platform context.unicode context.chunked context.normalized
          context.analyzed = .ok synthesized) ∧
    (contractVersionSupported synthesized.synthesisVersion = false →
      ∃ ledgerBatches summaryBatches required, context.requiredEvidence = .ok required ∧
      CutOnce ledgerBatches synthesized.claims ∧
      CutOnce summaryBatches synthesized.summaryClaims ∧
      List.Forall₂ (fun claim final =>
          LedgerOutcome runtime readers context synthesized s'.requests ledgerBatches claim final ∧
          (final.verdict = .supported →
            LedgerSupported runtime readers context synthesized s'.requests ledgerBatches claim))
        synthesized.claims ledger ∧
      List.Forall₂ (fun claim final =>
          SummaryOutcome runtime readers context synthesized s'.requests summaryBatches required
            claim final ∧
          (final.verdict = .supported →
            Supported runtime readers context synthesized s'.requests summaryBatches required
              claim))
        synthesized.summaryClaims summary) ∧
    (∀ response pairs results,
      parseMaterialResponse readers.fromMaterial response pairs = .ok results ↔
        ∃ raw, readers.fromMaterial response = some raw ∧
          (raw.verdicts.map (·.pairId)).Perm (ordinals "m" pairs.length) ∧
          List.Forall₂ (AnswersPair raw) ((ordinals "m" pairs.length).zip pairs) results) ∧
    (∀ required (verdicts verdicts' : MaterialVerdicts) before before' after after',
      (verdicts.map (·.1)).Nodup → verdicts'.Perm verdicts →
      before'.claimId = before.claimId → before'.verdict = before.verdict →
      before'.evidenceIds.Perm before.evidenceIds →
      mergeVerdict required verdicts before = .ok after →
      mergeVerdict required verdicts' before' = .ok after' → after'.verdict = after.verdict) := by
  refine ⟨?_, ?_, ?_, ?_⟩
  · intro extracted
    rw [verify, if_pos extracted] at run
    exact verifyContract_ok run
  · intro judged
    rw [verify, if_neg (Bool.eq_false_iff.mp judged), adaptExcept_ok_iff] at run
    obtain ⟨ledgerBatches, summaryBatches, required, needed, distinct, once, ledgerWhole,
      summaryWhole, ledgerEach, summaryEach⟩ := verifyClaims_ok readsBack run
    exact ⟨ledgerBatches, summaryBatches, required, needed, cutOnce_of_nodup ledgerWhole distinct,
      cutOnce_of_nodup summaryWhole once, ledgerEach.imp fun _ _ h => ⟨h, h.supported⟩,
      summaryEach.imp fun _ _ h => ⟨h, h.supported⟩⟩
  · intro response pairs results
    exact parseMaterialResponse_ok
  · intro required verdicts verdicts' before before' after after' apart answers same said cited
    exact mergeVerdict_perm apart answers same said cited

end Final

/-! ## One clause -/

theorem pureStep_ok_bind {α β : Type} (a : α) (f : α → Converse β) :
    (pureStep (.ok a) >>= f) = f a := rfl

section Planned

variable {runtime : VerifierRuntime} {readers : VerdictReaders} {context : VerificationContext}
  {synthesized : SynthesizedDocument} {prompt : VerificationPrompt} {claimBudget : Nat}
  {batches : List VerificationBatch}

/-- The judgement of claims whose batches are planned. -/
def plannedVerdicts (runtime : VerifierRuntime) (readers : VerdictReaders) (generationSeed : Nat)
    (batches : List VerificationBatch) : Converse (List ClaimVerification) := do
  checkCancellation runtime.toModelRuntime .verify
  checkHealth runtime
  checkCancellation runtime.toModelRuntime .verify
  classifyBatches runtime generationSeed readers.fromVerdicts batches

theorem ledgerVerdicts_planned
    (shown : verificationPrompt synthesized.claims context.ledgerEvidence = .ok prompt)
    (budget : context.claimBudget = .ok claimBudget)
    (planned : verificationBatchesForRuntime runtime.toModelRuntime prompt synthesized.claims
      claimBudget = .ok batches) :
    ledgerVerdicts runtime readers context synthesized =
      plannedVerdicts runtime readers context.generationSeed batches := by
  simp only [ledgerVerdicts, shown, budget, classifyClaimSupport, planned, pureStep_ok_bind,
    plannedVerdicts]

theorem summaryVerdicts_planned (busy : synthesized.summaryClaims ≠ [])
    (shown : verificationPromptWithSourceFraming synthesized.summaryClaims
      synthesized.synthesisEvidence context.sourceFraming = .ok prompt)
    (planned : verificationBatchesForRuntime runtime.toModelRuntime prompt
      synthesized.summaryClaims maxSummaryClaims = .ok batches) :
    summaryVerdicts runtime readers context synthesized =
      plannedVerdicts runtime readers context.generationSeed batches := by
  simp only [summaryVerdicts, if_neg busy, shown, classifyClaimSupport, planned, pureStep_ok_bind,
    plannedVerdicts]

end Planned

def succeeds {α : Type} (run : Converse α) (s : Conversation) : Bool :=
  match run s with
  | .ok _ _ => true
  | .error _ _ => false

theorem exists_of_succeeds {α : Type} {run : Converse α} {s : Conversation}
    (h : succeeds run s = true) : ∃ a s', run s = .ok a s' := by
  unfold succeeds at h
  split at h
  · exact ⟨_, _, by assumption⟩
  · cases h

/-- A verifier that supports every claim and finds every clause covered. -/
def approvingRuntime : VerifierRuntime where
  runtimeId _ := "runtime"
  modelId _ := "model"
  contextTokens _ := 8192
  preflightRequest _ := .ok ()
  generate n _ := .ok
    ⟨if n < 2 then "\x7b\"verdicts\":[\x7b\"claim_id\":\"k1\",\"verdict\":\"supported\"\x7d]\x7d"
      else "m1 material", "runtime", "model"⟩
  cancellationRequested _ := false
  health := .ok ()

def approvingReaders : VerdictReaders where
  fromVerdicts := readResponse
  fromMaterial text := if text = "m1 material" then some ⟨[⟨"m1", .material⟩]⟩ else none

def feesEvidence : EvidenceItem :=
  ⟨"fees", "chunk", "block", "", "Fees are due.", ⟨1, 1, none, .nativeText⟩⟩

def feesClaims : List CitedClaim :=
  [⟨"claim-fees", "Fees are due.", ["fees"]⟩]

def feesContext : VerificationContext where
  platform := ⟨fun _ => "fees", fun _ => false⟩
  unicode := .ascii
  profile := .contract
  normalized := Pipeline.feesDocument
  chunked := feesChunked
  analyzed := ⟨"document", "14.0.0", "runtime", "model", [⟨"chunk", "", [], [feesEvidence]⟩], [],
    [], []⟩
  claimBudget := .ok 8
  documentChecks := .ok ()
  sourceFraming _ := none
  requiredEvidence := .ok (some ["fees"])
  fidelitySupported _ _ := true
  generationSeed := 7

def feesDocument : SynthesizedDocument where
  contractExtraction := none
  documentId := "document"
  synthesisVersion := "13.0.0"
  runtimeId := "runtime"
  modelId := "model"
  presentationMode := .coherent
  summaryText := "Fees are due. [p. 1]"
  sourceChunkIds := ["chunk"]
  summaryClaims := feesClaims
  synthesisEvidence := [feesEvidence]
  claims := feesClaims
  warnings := []

def feesPrompt : VerificationPrompt :=
  ⟨[⟨"claim-fees", "Fees are due.", none, [⟨"fees", "Fees are due."⟩]⟩]⟩

theorem feesPrompt_rendered : (requestPrompt feesPrompt.claims).isOk = true := by decide +kernel

def feesRequest : String × RequestIds :=
  match h : requestPrompt feesPrompt.claims with
  | .ok request => request
  | .error _ => absurd feesPrompt_rendered (by simp [h, Except.isOk, Except.toBool])

theorem feesRequest_eq : requestPrompt feesPrompt.claims = .ok feesRequest := by
  unfold feesRequest
  split
  · assumption
  · next h => exact absurd feesPrompt_rendered (by simp [h, Except.isOk, Except.toBool])

def feesBatch : VerificationBatch :=
  ⟨verificationSystemPrompt feesPrompt.claims, feesRequest.1, feesClaims, feesRequest.2⟩

theorem length_append_ofList {text : String} {piece : List Char} {n : Nat}
    (short : text.length ≤ n) (here : piece.length ≤ 100) :
    (text ++ String.ofList piece).length ≤ n + 100 := by
  rw [String.length_append, String.length_ofList]
  omega

theorem baseSystemPrompt_length : baseSystemPrompt.length ≤ 2500 := by
  have first {piece : List Char} (here : piece.length ≤ 100) :
      (String.ofList piece).length ≤ 100 := by
    rwa [String.length_ofList]
  unfold baseSystemPrompt
  repeat refine length_append_ofList ?_ (by decide)
  exact Nat.le_trans (first (by decide)) (by decide)

theorem planBatches_single {shown : PromptVerificationClaim} {claim : CitedClaim} {limit : Nat}
    {batch : VerificationBatch}
    (whole : materializeVerificationBatch [shown] [claim] limit = .ok batch) :
    planBatches limit [] [] [(shown, claim)] = .ok [batch] := by
  have admitted : pairAdmits limit [(shown, claim)] = some true :=
    materializes_iff.mp ⟨batch, whole⟩
  have parts : admittedParts (pairAdmits limit) [] [(shown, claim)] = some [[(shown, claim)]] :=
    admittedParts_cons.mpr (.inl ⟨.inl admitted, rfl⟩)
  exact (@planBatches_ok limit [batch] [] _).mpr ⟨_, parts, .cons whole .nil⟩

theorem fees_planned :
    verificationBatchesForRuntime approvingRuntime.toModelRuntime feesPrompt feesClaims 8 =
      .ok [feesBatch] := by
  have bounded : WithinBounds 1 (modelFacingCharacters feesPrompt.claims feesRequest.1) 10752 := by
    have system : (verificationSystemPrompt feesPrompt.claims).length ≤ 2500 :=
      baseSystemPrompt_length
    have user : feesRequest.1.length ≤ 500 := by decide +kernel
    refine ⟨by decide, ?_⟩
    rw [modelFacingCharacters]
    omega
  have whole : materializeVerificationBatch feesPrompt.claims feesClaims 10752 = .ok feesBatch :=
    materializeVerificationBatch_ok.mpr ⟨_, _, feesRequest_eq, bounded, rfl⟩
  have made : planBatches 10752 [] [] (feesPrompt.claims.zip feesClaims) = .ok [feesBatch] :=
    planBatches_single whole
  have catalog : Catalog feesPrompt feesClaims 8 :=
    ⟨.inl (by decide), by simp [feesPrompt], by decide, .cons ⟨rfl, rfl, rfl⟩ .nil⟩
  have limit : verificationRequestCharacterLimit (approvingRuntime.contextTokens .verify)
      verificationOutputTokens = .ok 10752 := by
    rw [verificationRequestCharacterLimit, if_neg (by decide)]
    exact congrArg Except.ok (by decide)
  have planned : planVerificationBatches feesPrompt feesClaims 8 10752 = .ok [feesBatch] :=
    planVerificationBatches_ok.mpr ⟨catalog, made, by decide, by decide⟩
  unfold verificationBatchesForRuntime
  rw [ok_bind limit, planned]

theorem eq_ok_of_toOption {α : Type} {m : Except PipelineFailure α} {a : α}
    (h : m.toOption = some a) : m = .ok a := by
  cases m with
  | error e => cases h
  | ok b =>
      cases h
      rfl

theorem fees_shown : verificationPrompt feesClaims [feesEvidence] = .ok feesPrompt :=
  eq_ok_of_toOption (by decide +kernel)

/-- One claim is judged in the ledger and in the summary, and its clause is found covered. -/
theorem fees_verified : ∃ ledger summary s',
    verify approvingRuntime approvingReaders feesContext feesDocument ⟨0, 0, 0, []⟩ =
      .ok (ledger, summary) s' := by
  have planned : ∃ verdicts s', verifyClaims approvingRuntime approvingReaders feesContext
      feesDocument ⟨0, 0, 0, []⟩ = .ok verdicts s' := by
    apply exists_of_succeeds
    unfold verifyClaims
    rw [@ledgerVerdicts_planned _ _ feesContext feesDocument _ _ _ fees_shown rfl fees_planned,
      @summaryVerdicts_planned _ _ feesContext feesDocument _ _
        (by simp [feesDocument, feesClaims]) fees_shown fees_planned]
    decide +kernel
  obtain ⟨⟨ledger, summary⟩, s', run⟩ := planned
  refine ⟨ledger, summary, s', ?_⟩
  rw [verify, if_neg (by decide), adaptExcept_ok_iff]
  exact run

theorem fees_only_weakened : ∃ ledger summary s' batches,
    verify approvingRuntime approvingReaders feesContext feesDocument ⟨0, 0, 0, []⟩ =
      .ok (ledger, summary) s' ∧
    CutOnce batches feesDocument.summaryClaims ∧
    List.Forall₂ (fun claim (final : ClaimVerification) => final.verdict = .supported →
        Supported approvingRuntime approvingReaders feesContext feesDocument s'.requests batches
          (some ["fees"]) claim)
      feesDocument.summaryClaims summary := by
  obtain ⟨ledger, summary, s', run⟩ := fees_verified
  obtain ⟨-, judged, -⟩ := verdicts_only_weakened readResponse_readsBack run
  obtain ⟨_, batches, required, needed, _, once, _, each⟩ := judged (by decide)
  cases needed
  exact ⟨ledger, summary, s', batches, run, once, each.imp fun _ _ h => h.2⟩

/-! ## A contract extraction -/

def extractionContext (analyzed : AnalyzedDocument) : VerificationContext :=
  { feesContext with platform := feesPlatform, analyzed := analyzed }

/-- The clause of an extracted contract is supported although no verifier was asked. -/
theorem extraction_supported_unasked : ∃ analyzed synthesized s' claim,
    analyzeContract feesPlatform .ascii feesChunked Pipeline.feesDocument
      contractExtractionVersion = .ok analyzed ∧
    synthesizeContract feesPlatform .ascii feesChunked Pipeline.feesDocument analyzed =
      .ok synthesized ∧
    verify approvingRuntime approvingReaders (extractionContext analyzed) synthesized
      ⟨0, 0, 0, []⟩ = .ok (synthesized.claims.map supportedClaim, []) s' ∧
    claim ∈ synthesized.claims ∧ (supportedClaim claim).verdict = .supported ∧
    ∀ batches, ¬ LedgerSupported approvingRuntime approvingReaders (extractionContext analyzed)
      synthesized s'.requests batches claim := by
  obtain ⟨synthesized, made⟩ := exists_ok (show (analyzeContract feesPlatform .ascii feesChunked
    Pipeline.feesDocument contractExtractionVersion >>= synthesizeContract feesPlatform .ascii
      feesChunked Pipeline.feesDocument).isOk = true by decide +kernel)
  obtain ⟨analyzed, analyzes, synthesizes⟩ := peel_ok.mp made
  obtain ⟨some_claim, -, version⟩ := synthesizeContract_claims synthesizes
  obtain ⟨claim, mem⟩ := List.exists_mem_of_ne_nil _ some_claim
  have run : verifyContract approvingRuntime (extractionContext analyzed) synthesized
      ⟨0, 0, 0, []⟩ = .ok (synthesized.claims.map supportedClaim, []) ⟨0, 0, 1, []⟩ := by
    simp only [verifyContract, bind_ok_iff, adaptExcept_ok_iff, pureStep_ok_iff, pure_ok_iff]
    exact ⟨(), _, rfl, (), _, ⟨validateContractSynthesis_ok.mpr synthesizes, rfl⟩, trivial, rfl⟩
  refine ⟨analyzed, synthesized, ⟨0, 0, 1, []⟩, claim, analyzes, synthesizes, ?_, mem, rfl, ?_⟩
  · rw [verify, if_pos, run]
    rw [version, analyzeContract_version analyzes]
    decide
  · intro batches unheard
    obtain ⟨_, _, _, _, _, _, ⟨n, asked, -⟩, -⟩ := unheard.said.answered
    cases asked

end DocumentSummarizer.Coherent
