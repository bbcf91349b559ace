import DocumentSummarizer.Coherent.MaterialAnswers

/-! # Verdicts are only weakened

A claim is supported in the end only when the verifier said so of it in its one batch, the
guard let it pass, and every pair that a further check required of it was answered material.
-/

namespace DocumentSummarizer.Coherent

open DocumentSummarizer.Library DocumentSummarizer.Pipeline DocumentSummarizer.Pipeline.Gateway

/-! ## What was heard -/

/-- The runtime was sent a request and answered it. -/
def Heard (runtime : VerifierRuntime) (requests : List ModelRequest) (request : ModelRequest)
    (response : ModelResponse) : Prop :=
  ∃ n, requests[n]? = some request ∧ runtime.generate n request = .ok response

/-- The verifier judged the claims of a batch, each of them once. -/
structure BatchAnswered (runtime : VerifierRuntime)
    (fromStr : String → Option RawVerificationResponse) (generationSeed : Nat)
    (requests : List ModelRequest) (batch : VerificationBatch)
    (verifications : List ClaimVerification) : Prop where
  heard : ∃ ordinal response raw,
    Heard runtime requests (verificationRequest batch ordinal generationSeed) response ∧
      fromStr response.text = some raw ∧
      (raw.verdicts.map (·.claimId)).Perm batch.identifiers.vocabulary ∧
      List.Forall₂ (Answers batch.identifiers raw) batch.claims verifications

/-- The claims were judged in batches, each claim in one of them. -/
def Classified (runtime : VerifierRuntime) (fromStr : String → Option RawVerificationResponse)
    (generationSeed : Nat) (requests : List ModelRequest) (claims : List CitedClaim)
    (verifications : List ClaimVerification) : Prop :=
  ∃ batches parts, batches.flatMap (·.claims) = claims ∧ parts.flatten = verifications ∧
    List.Forall₂ (BatchAnswered runtime fromStr generationSeed requests) batches parts

/-- A pair of a claim and an evidence was judged, alone in its request. -/
structure PairAnswered (runtime : VerifierRuntime) (fromStr : String → Option RawMaterialResponse)
    (generationSeed : Nat) (check : MaterialCheck) (requests : List ModelRequest)
    (pair : MaterialPair) (verdict : MaterialVerdict) : Prop where
  heard : ∃ ordinal request response,
    materialRequest check [pair] ordinal generationSeed = .ok request ∧
      Heard runtime requests request response ∧
      fromStr response.text = some ⟨[⟨"m1", verdict⟩]⟩

section Heard

variable {runtime : VerifierRuntime} {requests requests' : List ModelRequest}
  {generationSeed : Nat} {s s' : Conversation}

theorem Heard.mono {request : ModelRequest} {response : ModelResponse}
    (longer : requests <+: requests') (h : Heard runtime requests request response) :
    Heard runtime requests' request response := by
  obtain ⟨n, sent, answered⟩ := h
  obtain ⟨later, rfl⟩ := longer
  refine ⟨n, ?_, answered⟩
  rw [List.getElem?_append_left (List.getElem?_eq_some_iff.mp sent).1, sent]

theorem BatchAnswered.mono {fromStr : String → Option RawVerificationResponse}
    {batch : VerificationBatch} {verifications : List ClaimVerification}
    (longer : requests <+: requests')
    (h : BatchAnswered runtime fromStr generationSeed requests batch verifications) :
    BatchAnswered runtime fromStr generationSeed requests' batch verifications := by
  obtain ⟨ordinal, response, raw, heard, rest⟩ := h.heard
  exact ⟨ordinal, response, raw, heard.mono longer, rest⟩

theorem PairAnswered.mono {fromStr : String → Option RawMaterialResponse} {check : MaterialCheck}
    {pair : MaterialPair} {verdict : MaterialVerdict} (longer : requests <+: requests')
    (h : PairAnswered runtime fromStr generationSeed check requests pair verdict) :
    PairAnswered runtime fromStr generationSeed check requests' pair verdict := by
  obtain ⟨ordinal, request, response, made, heard, said⟩ := h.heard
  exact ⟨ordinal, request, response, made, heard.mono longer, said⟩

theorem checkCancellation_requests {stage : PipelineStage} {u : Unit}
    (run : checkCancellation runtime.toModelRuntime stage s = .ok u s') :
    s'.requests = s.requests := by
  rw [checkCancellation_ok run]

theorem askVerifier_ok {request : Nat → Except PipelineFailure ModelRequest}
    {response : ModelResponse} (run : askVerifier runtime request s = .ok response s') :
    ∃ ordinal sent, request ordinal = .ok sent ∧ s'.requests = s.requests ++ [sent] ∧
      Heard runtime s'.requests sent response := by
  simp only [askVerifier, bind_ok_iff, pureStep_ok_iff] at run
  obtain ⟨_, s₁, checked, ordinal, s₂, reserved, sent, _, ⟨made, rfl⟩, answer, s₃, exchanged, _,
    s₄, checked', answered, rfl⟩ := run
  have first := checkCancellation_requests checked
  have second := congrArg Conversation.requests (reserveModelRequestOrdinal_ok reserved)
  have third := congrArg Conversation.requests (exchange_ok exchanged)
  have fourth := checkCancellation_requests checked'
  have all : s₄.requests = s.requests ++ [sent] := by
    rw [fourth, third]
    dsimp only
    rw [second, first]
  have answer_eq : runtime.generate s₂.requests.length sent = answer := by
    cases exchanged
    rfl
  have length : s₂.requests.length = s.requests.length := by
    rw [second, first]
  refine ⟨ordinal, sent, made, all, s.requests.length, ?_, ?_⟩
  · rw [all]
    exact List.getElem?_concat_length
  · rw [← length, answer_eq]
    exact mapError_ok_iff.mp answered

end Heard

/-! ## Batches -/

section Batches

variable {runtime : VerifierRuntime} {fromStr : String → Option RawVerificationResponse}
  {generationSeed : Nat} {s s' : Conversation}

/-- A batch of a plan names its claims. -/
structure PlannedBatch (batch : VerificationBatch) : Prop where
  named : batch.identifiers.durable = batch.claims.map (·.claimId)
  nonempty : batch.claims ≠ []
  few : batch.claims.length ≤ maxVerificationClaimsPerRequest

theorem planned_of_plans {prompt : VerificationPrompt} {claims : List CitedClaim} {limit : Nat}
    {batches : List VerificationBatch} (plans : Plans prompt claims limit batches) :
    ∀ batch ∈ batches, PlannedBatch batch := by
  obtain ⟨parts, _, each, _⟩ := plans.requests
  intro batch mem
  obtain ⟨part, requests⟩ : ∃ part, Requests limit part batch := by
    obtain ⟨i, inside, rfl⟩ := List.mem_iff_getElem.mp mem
    have length := each.length_eq
    exact ⟨parts[i], (List.forall₂_iff_get.mp each).2 i (by omega) inside⟩
  refine ⟨?_, requests.nonempty, requests.few⟩
  rw [requestPrompt_durable requests.rendered]
  have shows := requests.shows
  generalize batch.claims = shown at shows
  clear requests
  induction shows with
  | nil => rfl
  | cons here _ ih => rw [List.map_cons, List.map_cons, here.1, ih]

variable {verifications : List ClaimVerification}

theorem classifyBatch_ok (readsBack : ReadsBack fromStr) {batch : VerificationBatch}
    (planned : PlannedBatch batch)
    (run : classifyBatch runtime generationSeed fromStr batch s = .ok verifications s') :
    s.requests <+: s'.requests ∧
      BatchAnswered runtime fromStr generationSeed s'.requests batch verifications := by
  simp only [classifyBatch, bind_ok_iff, pureStep_ok_iff] at run
  obtain ⟨response, s₁, asked, _, s₂, checked, _, _, ⟨_, rfl⟩, parsed, rfl⟩ := run
  obtain ⟨ordinal, sent, made, requests, heard⟩ := askVerifier_ok asked
  cases made
  have same := checkCancellation_requests checked
  obtain ⟨raw, read, perm, answers⟩ :=
    (batchVerdicts_ok readsBack planned.named planned.nonempty planned.few).mp parsed
  rw [same]
  exact ⟨requests ▸ List.prefix_append _ _, ordinal, response, raw, heard, read, perm, answers⟩

theorem classifyBatches_ok (readsBack : ReadsBack fromStr) {batches : List VerificationBatch}
    (planned : ∀ batch ∈ batches, PlannedBatch batch)
    (run : classifyBatches runtime generationSeed fromStr batches s = .ok verifications s') :
    s.requests <+: s'.requests ∧ ∃ parts, parts.flatten = verifications ∧
      List.Forall₂ (BatchAnswered runtime fromStr generationSeed s'.requests) batches parts := by
  induction batches generalizing s verifications with
  | nil =>
      cases run
      exact ⟨List.prefix_rfl, [], rfl, .nil⟩
  | cons batch later ih =>
      obtain ⟨here, further⟩ := List.forall_mem_cons.mp planned
      simp only [classifyBatches, bind_ok_iff, pure_ok_iff] at run
      obtain ⟨verdicts, s₁, first, others, s₂, rest, rfl, rfl⟩ := run
      obtain ⟨grown, answered⟩ := classifyBatch_ok readsBack here first
      obtain ⟨grown', parts, flat, each⟩ := ih further rest
      exact ⟨grown.trans grown', verdicts :: parts, by rw [List.flatten_cons, flat],
        .cons (answered.mono grown') each⟩

theorem classifyClaimSupport_ok (readsBack : ReadsBack fromStr) {prompt : VerificationPrompt}
    {claims : List CitedClaim} {claimBudget : Nat}
    (run : classifyClaimSupport runtime generationSeed fromStr prompt claims claimBudget s =
      .ok verifications s') :
    s.requests <+: s'.requests ∧
      Classified runtime fromStr generationSeed s'.requests claims verifications := by
  simp only [classifyClaimSupport, checkHealth, bind_ok_iff, pureStep_ok_iff] at run
  obtain ⟨_, s₁, checked, batches, _, ⟨plan, rfl⟩, _, _, ⟨_, rfl⟩, _, s₂, checked', rest⟩ := run
  simp only [verificationBatchesForRuntime, peel_ok] at plan
  obtain ⟨limit, _, planned⟩ := plan
  have plans := plans_of_ok planned
  obtain ⟨grown, parts, flat, each⟩ :=
    classifyBatches_ok readsBack (planned_of_plans plans) rest
  have same := (checkCancellation_requests checked').trans (checkCancellation_requests checked)
  rw [same] at grown
  exact ⟨grown, batches, parts, plans.whole, flat, each⟩

end Batches

/-! ## The guard -/

/-- What the guard does to the verification of a claim. -/
structure Guarded (supported : String → List EvidenceItem → Bool) (evidence : List EvidenceItem)
    (claim : CitedClaim) (before after : ClaimVerification) : Prop where
  claimId : after.claimId = claim.claimId
  evidenceIds : after.evidenceIds = claim.evidenceIds
  kept : before.verdict ≠ .supported → after = before
  judged : before.verdict = .supported → ∃ cited,
    List.Forall₂ (fun evidenceId item =>
      evidence.reverse.find? (·.evidenceId = evidenceId) = some item) claim.evidenceIds cited ∧
    after.verdict = if supported claim.text cited = true then .supported else .unsupported

section Guard

variable {supported : String → List EvidenceItem → Bool} {evidence : List EvidenceItem}

theorem guardVerification_ok {claim : CitedClaim} {before after : ClaimVerification}
    (done : guardVerification supported evidence claim before = .ok after) :
    Guarded supported evidence claim before after := by
  simp only [guardVerification, peel_ok, refuseIf_eq_ok, not_or, not_not, ne_eq] at done
  obtain ⟨_, ⟨claimId, evidenceIds⟩, done⟩ := done
  by_cases held : before.verdict = .supported
  · simp only [held, not_true_eq_false, if_false, peel_ok, mapM_ok_iff, okOrElse_eq_ok] at done
    obtain ⟨cited, each, done⟩ := done
    split at done
    · next holds =>
        cases done
        exact ⟨claimId, evidenceIds, fun other => absurd held other,
          fun _ => ⟨cited, each, by rw [if_pos holds, held]⟩⟩
    · next fails =>
        cases done
        exact ⟨claimId, evidenceIds, fun other => absurd held other,
          fun _ => ⟨cited, each, by rw [if_neg fails]⟩⟩
  · rw [if_pos held] at done
    cases done
    exact ⟨claimId, evidenceIds, fun _ => rfl, fun other => absurd other held⟩

theorem applySemanticFidelityGuards_ok {claims : List CitedClaim}
    {before after : List ClaimVerification}
    (done : applySemanticFidelityGuards supported claims evidence before = .ok after) :
    claims.length = before.length ∧
      List.Forall₂ (fun entry verification =>
        Guarded supported evidence entry.1 entry.2 verification) (claims.zip before) after := by
  simp only [applySemanticFidelityGuards, peel_ok, refuseIf_eq_ok, not_not, mapM_ok_iff,
    ne_eq] at done
  obtain ⟨_, length, each⟩ := done
  exact ⟨length, each.imp fun _ _ => guardVerification_ok⟩

end Guard

/-! ## Pairs -/

section Pairs

variable {runtime : VerifierRuntime} {fromStr : String → Option RawMaterialResponse}
  {generationSeed : Nat} {check : MaterialCheck} {s s' : Conversation}

theorem askPair_ok {pair : MaterialPair} {results : List MaterialResult}
    (run : askPair runtime fromStr generationSeed check pair s = .ok results s') :
    s.requests <+: s'.requests ∧ ∃ verdict, results = [⟨pair.claimId, pair.evidenceId, verdict⟩] ∧
      PairAnswered runtime fromStr generationSeed check s'.requests pair verdict := by
  simp only [askPair, bind_ok_iff, pureStep_ok_iff] at run
  obtain ⟨response, s₁, asked, _, _, ⟨_, rfl⟩, parsed, rfl⟩ := run
  obtain ⟨ordinal, sent, made, requests, heard⟩ := askVerifier_ok asked
  obtain ⟨raw, read, perm, each⟩ := parseMaterialResponse_ok.mp parsed
  have one : ordinals "m" 1 = ["m1"] := by decide
  rw [List.length_singleton, one] at perm each
  obtain ⟨result, _, answers, rest, rfl⟩ := List.forall₂_cons_left_iff.mp each
  cases rest
  have named : raw.verdicts.map (·.pairId) = ["m1"] := List.perm_singleton.mp perm
  obtain ⟨said, held, name⟩ := List.map_eq_singleton_iff.mp named
  have stands := answers.verdict
  rw [held, List.mem_singleton] at stands
  refine ⟨requests ▸ List.prefix_append _ _, result.verdict, ?_, ordinal, sent, response, made,
    heard, ?_⟩
  · rw [← answers.claimId, ← answers.evidenceId]
  · rw [read, stands, ← held]

/-- The entries of the map for answered pairs. -/
def answerEntries (pairs : List MaterialPair) (answers : List MaterialVerdict) : MaterialVerdicts :=
  (pairs.zip answers).map fun entry => ((entry.1.claimId, entry.1.evidenceId), entry.2)

theorem askPairs_ok {distinct : Bool} {pairs : List MaterialPair}
    {verdicts gathered : MaterialVerdicts}
    (run : askPairs runtime fromStr generationSeed check distinct verdicts pairs s =
      .ok gathered s') :
    s.requests <+: s'.requests ∧ ∃ answers,
      List.Forall₂ (PairAnswered runtime fromStr generationSeed check s'.requests) pairs answers ∧
      gathered = (answerEntries pairs answers).reverse ++ verdicts := by
  induction pairs generalizing s verdicts with
  | nil =>
      cases run
      exact ⟨List.prefix_rfl, [], .nil, rfl⟩
  | cons pair later ih =>
      simp only [askPairs, bind_ok_iff, pureStep_ok_iff] at run
      obtain ⟨results, s₁, asked, inserted, _, ⟨into, rfl⟩, rest⟩ := run
      obtain ⟨grown, verdict, rfl, answered⟩ := askPair_ok asked
      simp only [insertResults, peel_ok, refuseIf_eq_ok] at into
      obtain ⟨_, _, into⟩ := into
      cases into
      obtain ⟨grown', answers, each, rfl⟩ := ih rest
      refine ⟨grown.trans grown', verdict :: answers, .cons (answered.mono grown') each, ?_⟩
      simp [answerEntries]

/-- The answer found for a pair is one to a pair with its claim and its evidence. -/
theorem answer_of_lookup {requests : List ModelRequest} {pairs : List MaterialPair}
    {answers : List MaterialVerdict} {claimId evidenceId : String}
    (each : List.Forall₂ (PairAnswered runtime fromStr generationSeed check requests) pairs answers)
    (asked : ∃ pair ∈ pairs, pair.claimId = claimId ∧ pair.evidenceId = evidenceId) :
    ∃ verdict, ((answerEntries pairs answers).reverse ++ []).lookup (claimId, evidenceId) =
        some verdict ∧
      ∃ pair ∈ pairs, pair.claimId = claimId ∧ pair.evidenceId = evidenceId ∧
        PairAnswered runtime fromStr generationSeed check requests pair verdict := by
  obtain ⟨pair, mem, rfl, rfl⟩ := asked
  obtain ⟨i, inside, rfl⟩ := List.mem_iff_getElem.mp mem
  have length := each.length_eq
  have key : (pairs[i].claimId, pairs[i].evidenceId) ∈
      ((answerEntries pairs answers).reverse ++ []).map Prod.fst := by
    simp only [List.append_nil, List.map_reverse, List.mem_reverse, answerEntries, List.map_map,
      List.mem_map]
    exact ⟨(pairs[i], answers[i]), List.mem_iff_getElem.mpr ⟨i, by simp; omega, by simp⟩, rfl⟩
  obtain ⟨verdict, found⟩ := lookup_of_mem key
  refine ⟨verdict, found, ?_⟩
  have held := mem_of_lookup found
  simp only [List.append_nil, List.mem_reverse, answerEntries, List.mem_map, Prod.mk.injEq] at held
  obtain ⟨⟨other, answer⟩, among, ⟨claimId, evidenceId⟩, rfl⟩ := held
  have answered := List.forall₂_zip each among
  exact ⟨other, (List.of_mem_zip among).1, claimId, evidenceId, answered⟩

theorem claimPairs_ok {evidence : List EvidenceItem} {required : List String} {claim : CitedClaim}
    {pairs : List MaterialPair} (made : claimPairs evidence required claim = .ok pairs) :
    List.Forall₂ (fun evidenceId pair => ∃ item,
      evidence.find? (·.evidenceId = evidenceId) = some item ∧
        pair = ⟨claim.claimId, evidenceId, claim.text, item.exactQuote⟩)
      (claim.evidenceIds.filter (· ∈ required)) pairs := by
  simp only [claimPairs, mapM_ok_iff, peel_ok, okOrElse_eq_ok, return_ok] at made
  refine made.imp fun evidenceId pair h => ?_
  obtain ⟨item, found, rfl⟩ := h
  exact ⟨item, found, rfl⟩

end Pairs

end DocumentSummarizer.Coherent
