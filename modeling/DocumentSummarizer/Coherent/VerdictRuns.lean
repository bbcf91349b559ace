import DocumentSummarizer.Coherent.VerdictSafety
import DocumentSummarizer.Library.OptionSequence

/-! # The verdicts of a run

Every step after the verifier keeps the verdict on a claim or weakens a claim that was
supported so far, and what it does rests on answers about that very claim.
-/

namespace DocumentSummarizer.Coherent

open DocumentSummarizer.Library DocumentSummarizer.Pipeline DocumentSummarizer.Pipeline.Gateway

/-! ## One claim in one batch -/

/-- What the verifier said of a claim, in a batch of the claim. -/
structure Judged (runtime : VerifierRuntime) (fromStr : String → Option RawVerificationResponse)
    (generationSeed : Nat) (requests : List ModelRequest) (batches : List VerificationBatch)
    (claim : CitedClaim) (said : ClaimVerification) : Prop where
  answered : ∃ batch ∈ batches, claim ∈ batch.claims ∧ ∃ ordinal response raw,
    Heard runtime requests (verificationRequest batch ordinal generationSeed) response ∧
      fromStr response.text = some raw ∧
      (raw.verdicts.map (·.claimId)).Perm batch.identifiers.vocabulary ∧
      Answers batch.identifiers raw claim said

section Judged

variable {runtime : VerifierRuntime} {fromStr : String → Option RawVerificationResponse}
  {generationSeed : Nat} {requests : List ModelRequest} {batches : List VerificationBatch}
  {claims : List CitedClaim}

theorem judged_of_answered {parts : List (List ClaimVerification)}
    (each : List.Forall₂ (BatchAnswered runtime fromStr generationSeed requests) batches parts) :
    List.Forall₂ (Judged runtime fromStr generationSeed requests batches)
      (batches.flatMap (·.claims)) parts.flatten := by
  induction each with
  | nil => exact .nil
  | @cons batch part rest later here _ ih =>
      obtain ⟨ordinal, response, raw, heard, read, perm, answers⟩ := here.heard
      rw [List.flatMap_cons, List.flatten_cons]
      apply List.rel_append
      · refine ((List.forall₂_and_left _ _).mpr ⟨fun _ mem => mem, answers⟩).imp ?_
        intro claim said h
        exact ⟨batch, List.mem_cons_self, h.1, ordinal, response, raw, heard, read, perm, h.2⟩
      · refine ih.imp fun claim said h => ?_
        obtain ⟨other, mem, further⟩ := h.answered
        exact ⟨other, List.mem_cons_of_mem _ mem, further⟩

theorem one_batch (whole : batches.flatMap (·.claims) = claims) (once : claims.Nodup)
    {claim : CitedClaim} (mem : claim ∈ claims) :
    ∃! k : Nat, ∃ batch, batches[k]? = some batch ∧ claim ∈ batch.claims := by
  subst whole
  obtain ⟨_, apart⟩ := List.nodup_flatMap.mp once
  obtain ⟨batch, held, inside⟩ := List.mem_flatMap.mp mem
  obtain ⟨k, bound, rfl⟩ := List.mem_iff_getElem.mp held
  refine ⟨k, ⟨_, List.getElem?_eq_getElem bound, inside⟩, ?_⟩
  rintro k' ⟨other, there, inside'⟩
  obtain ⟨bound', rfl⟩ := List.getElem?_eq_some_iff.mp there
  rw [List.pairwise_iff_getElem] at apart
  rcases Nat.lt_trichotomy k' k with less | same | more
  · exact absurd inside (apart k' k bound' bound less inside')
  · exact same
  · exact absurd inside' (apart k k' bound bound' more inside)

end Judged

/-! ## A check of material coverage -/

/-- What a check does to the verification of a claim, given the evidence it asks about. -/
structure Weighed (runtime : VerifierRuntime) (fromStr : String → Option RawMaterialResponse)
    (generationSeed : Nat) (check : MaterialCheck) (requests : List ModelRequest)
    (evidence : List EvidenceItem) (claim : CitedClaim) (evidenceIds : List String)
    (before after : ClaimVerification) : Prop where
  kept : before.verdict ≠ .supported → after = before
  judged : before.verdict = .supported → ∃ answers,
    List.Forall₂ (fun evidenceId answer => ∃ item,
      evidence.find? (·.evidenceId = evidenceId) = some item ∧
        PairAnswered runtime fromStr generationSeed check requests
          ⟨claim.claimId, evidenceId, claim.text, item.exactQuote⟩ answer) evidenceIds answers ∧
    after = { before with verdict := materialOutcome answers }

section Checks

variable {runtime : VerifierRuntime} {fromStr : String → Option RawMaterialResponse}
  {generationSeed : Nat} {check : MaterialCheck} {requests : List ModelRequest}
  {evidence : List EvidenceItem} {claims : List CitedClaim} {s s' : Conversation}

/-- The pairs of a claim were answered about that claim. -/
theorem answers_of_planned (once : (claims.map (·.claimId)).Nodup) {asked : List CitedClaim}
    (known : asked ⊆ claims) {required : CitedClaim → List String}
    {planned : List (List MaterialPair)} {answers : List MaterialVerdict}
    (plans : List.Forall₂ (fun claim pairs =>
      claimPairs evidence (required claim) claim = .ok pairs) asked planned)
    (each : List.Forall₂ (PairAnswered runtime fromStr generationSeed check requests)
      planned.flatten answers) {claim : CitedClaim} (mem : claim ∈ asked) :
    ∃ verdicts, List.Forall₂ (fun evidenceId answer =>
        ((answerEntries planned.flatten answers).reverse ++ []).lookup (claim.claimId, evidenceId) =
          some answer ∧
        ∃ item, evidence.find? (·.evidenceId = evidenceId) = some item ∧
          PairAnswered runtime fromStr generationSeed check requests
            ⟨claim.claimId, evidenceId, claim.text, item.exactQuote⟩ answer)
      (claim.evidenceIds.filter (· ∈ required claim)) verdicts := by
  apply exists_forall₂_iff.mpr
  intro evidenceId cited
  have origin : ∀ pair ∈ planned.flatten, ∃ other ∈ asked, ∃ item,
      evidence.find? (·.evidenceId = pair.evidenceId) = some item ∧
        pair = ⟨other.claimId, pair.evidenceId, other.text, item.exactQuote⟩ := by
    intro pair among
    obtain ⟨pairs, held, inside⟩ := List.mem_flatten.mp among
    obtain ⟨other, mem', made⟩ := forall₂_right_exists plans held
    obtain ⟨cited', _, item, found, rfl⟩ := forall₂_right_exists (claimPairs_ok made) inside
    exact ⟨other, mem', item, found, rfl⟩
  obtain ⟨pair, among, named, about⟩ : ∃ pair ∈ planned.flatten,
      pair.claimId = claim.claimId ∧ pair.evidenceId = evidenceId := by
    obtain ⟨pairs, held, made⟩ := forall₂_left_exists plans mem
    obtain ⟨pair, inside, item, _, rfl⟩ := forall₂_left_exists (claimPairs_ok made) cited
    exact ⟨_, List.mem_flatten.mpr ⟨pairs, held, inside⟩, rfl, rfl⟩
  obtain ⟨verdict, found, other, among', named', about', answered⟩ :=
    answer_of_lookup each ⟨pair, among, named, about⟩
  obtain ⟨source, mem', item, cited', same⟩ := origin other among'
  have same_claim : source = claim := by
    apply List.inj_on_of_nodup_map once (known mem') (known mem)
    rw [← named', same]
  subst same_claim
  rw [about'] at cited' same
  exact ⟨verdict, found, item, cited', same ▸ answered⟩

theorem materialPairs_ok {required : List String} {pairs : List MaterialPair}
    (made : materialPairs claims evidence required = .ok pairs) :
    ∃ planned, pairs = planned.flatten ∧
      List.Forall₂ (fun claim pairs => claimPairs evidence required claim = .ok pairs)
        claims planned := by
  simp only [materialPairs, peel_ok, refuseIf_eq_ok, return_ok, mapM_ok_iff] at made
  obtain ⟨_, _, _, _, planned, each, _, _, rfl⟩ := made
  exact ⟨planned, rfl, each⟩

theorem filter_mem_eq_self {ids wider : List String} (inside : ids ⊆ wider) :
    ids.filter (· ∈ wider) = ids :=
  List.filter_eq_self.mpr fun _ mem => by simpa using inside mem

/-- A trimmed claim is weighed by its own sources, and no other claim is touched. -/
theorem verifySourceContributions_ok (once : (claims.map (·.claimId)).Nodup)
    {warnings : List PipelineWarning} {before after : List ClaimVerification}
    (aligned : List.Forall₂ (fun claim verification => verification.claimId = claim.claimId ∧
      verification.evidenceIds = claim.evidenceIds) claims before)
    (run : verifySourceContributions runtime fromStr generationSeed claims evidence warnings before
      s = .ok after s') :
    s.requests <+: s'.requests ∧ List.Forall₂ (fun entry verification =>
      (wasTrimmed entry.1 warnings = true → Weighed runtime fromStr generationSeed contributionCheck
        s'.requests evidence entry.1 entry.1.evidenceIds entry.2 verification) ∧
      (wasTrimmed entry.1 warnings = false → verification = entry.2))
      (claims.zip before) after := by
  simp only [verifySourceContributions, bind_ok_iff, pureStep_ok_iff, mapM_ok_iff] at run
  obtain ⟨planned, _, ⟨plans, rfl⟩, _, _, ⟨_, rfl⟩, _, _, ⟨_, rfl⟩, gathered, s₁, asked, merged,
    rfl⟩ := run
  obtain ⟨grown, answers, each, rfl⟩ := askPairs_ok asked
  have own : List.Forall₂ (fun claim pairs =>
      claimPairs evidence claim.evidenceIds claim = .ok pairs)
      (claims.filter (wasTrimmed · warnings)) planned := by
    refine plans.imp fun claim pairs made => ?_
    obtain ⟨parts, rfl, one⟩ := materialPairs_ok made
    obtain ⟨part, _, made', rest, rfl⟩ := List.forall₂_cons_left_iff.mp one
    cases rest
    simpa using made'
  refine ⟨grown, ((List.forall₂_and_left _ _).mpr ⟨fun _ mem => mem, merged⟩).imp ?_⟩
  rintro ⟨claim, verification⟩ final ⟨mem, done⟩
  dsimp only at done ⊢
  refine ⟨fun trimmed => ?_, fun untouched => ?_⟩
  · rw [if_pos trimmed] at done
    have inside : claim ∈ claims.filter (wasTrimmed · warnings) :=
      List.mem_filter.mpr ⟨(List.of_mem_zip mem).1, trimmed⟩
    obtain ⟨claimId, evidenceIds⟩ := List.forall₂_zip aligned mem
    refine ⟨fun unsupported => mergeVerdict_unsupported unsupported done, fun supported => ?_⟩
    obtain ⟨verdicts, found⟩ := answers_of_planned once (List.filter_subset_self _) own each inside
    rw [filter_mem_eq_self (List.Subset.refl _)] at found
    have all : claim.evidenceIds ⊆
        (claims.filter (wasTrimmed · warnings)).flatMap (·.evidenceIds) :=
      fun _ cited => List.mem_flatMap.mpr ⟨claim, inside, cited⟩
    have settled := @mergeVerdict_ok _ _ verification final verdicts (by
      rw [claimId, evidenceIds, filter_mem_eq_self all]
      exact found.imp fun _ _ h => h.1) done
    rw [if_pos supported] at settled
    exact ⟨verdicts, found.imp fun _ _ h => h.2, settled⟩
  · rw [if_neg (by simp [untouched])] at done
    cases done
    rfl

theorem applyContractMaterialCoverage_ok (once : (claims.map (·.claimId)).Nodup)
    {required : List String} {before after : List ClaimVerification}
    (aligned : List.Forall₂ (fun claim verification => verification.claimId = claim.claimId ∧
      verification.evidenceIds = claim.evidenceIds) claims before)
    (run : applyContractMaterialCoverage runtime fromStr generationSeed claims evidence required
      before s = .ok after s') :
    s.requests <+: s'.requests ∧ List.Forall₂ (fun entry verification =>
      Weighed runtime fromStr generationSeed contractCheck s'.requests evidence entry.1
        (entry.1.evidenceIds.filter (· ∈ required)) entry.2 verification)
      (claims.zip before) after := by
  simp only [applyContractMaterialCoverage, bind_ok_iff, pureStep_ok_iff] at run
  obtain ⟨pairs, _, ⟨made, rfl⟩, rest⟩ := run
  obtain ⟨planned, rfl, plans⟩ := materialPairs_ok made
  have known : ((claims.zip before).filter fun entry =>
      decide (entry.2.verdict = .supported)).map (·.1) ⊆ claims := by
    intro claim mem
    obtain ⟨entry, held, rfl⟩ := List.mem_map.mp mem
    exact (List.of_mem_zip (List.mem_filter.mp held).1).1
  have asked {claim : CitedClaim} {verification : ClaimVerification}
      (mem : (claim, verification) ∈ claims.zip before)
      (supported : verification.verdict = .supported) :
      claim ∈ ((claims.zip before).filter fun entry =>
        decide (entry.2.verdict = .supported)).map (·.1) :=
    List.mem_map.mpr ⟨(claim, verification), List.mem_filter.mpr ⟨mem, by simp [supported]⟩, rfl⟩
  have whole : (claims.zip before).map (·.2) = before :=
    List.map_snd_zip (Nat.le_of_eq aligned.length_eq.symm)
  split at rest
  · next none =>
      -- no supported claim cites evidence that is required
      simp only [pure_ok_iff] at rest
      obtain ⟨rfl, rfl⟩ := rest
      refine ⟨List.prefix_rfl, ?_⟩
      have same : List.Forall₂ (fun (entry : CitedClaim × ClaimVerification) verification =>
          verification = entry.2) (claims.zip before) before := by
        conv => rhs; rw [← whole]
        rw [List.forall₂_map_right_iff, List.forall₂_same]
        exact fun _ _ => rfl
      refine ((List.forall₂_and_left _ _).mpr ⟨fun _ mem => mem, same⟩).imp ?_
      rintro ⟨claim, verification⟩ final ⟨mem, rfl⟩
      refine ⟨fun _ => rfl, fun supported => ⟨[], ?_, ?_⟩⟩
      · obtain ⟨own, held, made'⟩ := forall₂_left_exists plans (asked mem supported)
        have empty : own = [] := List.flatten_eq_nil_iff.mp none own held
        have each := claimPairs_ok made'
        rw [empty] at each
        cases found : claim.evidenceIds.filter (· ∈ required) with
        | nil => exact .nil
        | cons evidenceId later =>
            rw [found] at each
            cases each
      · show final = { final with verdict := materialOutcome [] }
        rw [show materialOutcome [] = ClaimVerdict.supported from rfl, ← supported]
  · simp only [checkHealth, bind_ok_iff, pureStep_ok_iff, mapM_ok_iff] at rest
    obtain ⟨_, _, ⟨_, rfl⟩, _, _, ⟨_, rfl⟩, _, _, ⟨_, rfl⟩, gathered, s₁, sent, merged, rfl⟩ := rest
    obtain ⟨grown, answers, each, rfl⟩ := askPairs_ok sent
    rw [← whole, List.forall₂_map_left_iff] at merged
    refine ⟨grown, ((List.forall₂_and_left _ _).mpr ⟨fun _ mem => mem, merged⟩).imp ?_⟩
    rintro ⟨claim, verification⟩ final ⟨mem, done⟩
    obtain ⟨claimId, evidenceIds⟩ := List.forall₂_zip aligned mem
    refine ⟨fun unsupported => mergeVerdict_unsupported unsupported done, fun supported => ?_⟩
    obtain ⟨verdicts, found⟩ := answers_of_planned once known plans each (asked mem supported)
    have settled := @mergeVerdict_ok _ _ verification final verdicts (by
      rw [claimId, evidenceIds]
      exact found.imp fun _ _ h => h.1) done
    rw [if_pos supported] at settled
    exact ⟨verdicts, found.imp fun _ _ h => h.2, settled⟩

end Checks

/-! ## The run -/

section Run

variable {runtime : VerifierRuntime} {readers : VerdictReaders} {context : VerificationContext}
  {synthesized : SynthesizedDocument} {requests : List ModelRequest}

/-- How the verdict on a claim of the ledger came about. -/
structure LedgerOutcome (runtime : VerifierRuntime) (readers : VerdictReaders)
    (context : VerificationContext) (synthesized : SynthesizedDocument)
    (requests : List ModelRequest) (batches : List VerificationBatch) (claim : CitedClaim)
    (final : ClaimVerification) : Prop where
  steps : ∃ said,
    Judged runtime readers.fromVerdicts context.generationSeed requests batches claim said ∧
      if synthesized.presentationMode = .claimLedgerFallback then
        Guarded context.fidelitySupported context.ledgerEvidence claim said final
      else final = said

/-- How the verdict on a claim of the summary came about. -/
structure SummaryOutcome (runtime : VerifierRuntime) (readers : VerdictReaders)
    (context : VerificationContext) (synthesized : SynthesizedDocument)
    (requests : List ModelRequest) (batches : List VerificationBatch)
    (required : Option (List String)) (claim : CitedClaim) (final : ClaimVerification) :
    Prop where
  steps : ∃ said guarded contributed,
    Judged runtime readers.fromVerdicts context.generationSeed requests batches claim said ∧
    Guarded context.fidelitySupported synthesized.synthesisEvidence claim said guarded ∧
    (if context.profile = .general ∧ wasTrimmed claim synthesized.warnings = true then
      Weighed runtime readers.fromMaterial context.generationSeed contributionCheck requests
        synthesized.synthesisEvidence claim claim.evidenceIds guarded contributed
    else contributed = guarded) ∧
    match required with
    | none => final = contributed
    | some required =>
      Weighed runtime readers.fromMaterial context.generationSeed contractCheck requests
        synthesized.synthesisEvidence claim (claim.evidenceIds.filter (· ∈ required)) contributed
        final ∧
      ((∀ evidenceId ∈ claim.evidenceIds, evidenceId ∉ required) → final = contributed)

/-- What stands behind a claim that is supported in the end. -/
structure Supported (runtime : VerifierRuntime) (readers : VerdictReaders)
    (context : VerificationContext) (synthesized : SynthesizedDocument)
    (requests : List ModelRequest) (batches : List VerificationBatch)
    (required : Option (List String)) (claim : CitedClaim) : Prop where
  said : Judged runtime readers.fromVerdicts context.generationSeed requests batches claim
    ⟨claim.claimId, claim.evidenceIds, .supported⟩
  fidelity : ∃ cited, List.Forall₂ (fun evidenceId item =>
      synthesized.synthesisEvidence.reverse.find? (·.evidenceId = evidenceId) = some item)
      claim.evidenceIds cited ∧ context.fidelitySupported claim.text cited = true
  contributions : context.profile = .general → wasTrimmed claim synthesized.warnings = true →
    ∀ evidenceId ∈ claim.evidenceIds, ∃ item,
      PairAnswered runtime readers.fromMaterial context.generationSeed contributionCheck requests
        ⟨claim.claimId, evidenceId, claim.text, item⟩ .material
  coverage : ∀ ids ∈ required, ∀ evidenceId ∈ claim.evidenceIds, evidenceId ∈ ids → ∃ item,
    PairAnswered runtime readers.fromMaterial context.generationSeed contractCheck requests
      ⟨claim.claimId, evidenceId, claim.text, item⟩ .material

variable {generationSeed : Nat}

theorem Judged.mono {fromStr : String → Option RawVerificationResponse}
    {requests' : List ModelRequest} {batches : List VerificationBatch} {claim : CitedClaim}
    {said : ClaimVerification} (longer : requests <+: requests')
    (h : Judged runtime fromStr generationSeed requests batches claim said) :
    Judged runtime fromStr generationSeed requests' batches claim said := by
  obtain ⟨batch, mem, inside, ordinal, response, raw, heard, rest⟩ := h.answered
  exact ⟨batch, mem, inside, ordinal, response, raw, heard.mono longer, rest⟩

variable {evidence : List EvidenceItem} {fromStr : String → Option RawMaterialResponse}
  {before after : ClaimVerification} {check : MaterialCheck}

theorem Weighed.mono
    {requests' : List ModelRequest}
    {claim : CitedClaim} {evidenceIds : List String}
    (longer : requests <+: requests')
    (h : Weighed runtime fromStr generationSeed check requests evidence claim evidenceIds before
      after) :
    Weighed runtime fromStr generationSeed check requests' evidence claim evidenceIds before
      after := by
  refine ⟨h.kept, fun supported => ?_⟩
  obtain ⟨answers, each, settled⟩ := h.judged supported
  refine ⟨answers, each.imp fun _ _ answered => ?_, settled⟩
  obtain ⟨item, found, said⟩ := answered
  exact ⟨item, found, said.mono longer⟩

/-- A claim that is supported after a check was supported before, and all its pairs were answered
material. -/
theorem Weighed.supported
    {claim : CitedClaim}
    {evidenceIds : List String}
    (h : Weighed runtime fromStr generationSeed check requests evidence claim evidenceIds before
      after) (final : after.verdict = .supported) :
    before.verdict = .supported ∧ ∀ evidenceId ∈ evidenceIds, ∃ item,
      PairAnswered runtime fromStr generationSeed check requests
        ⟨claim.claimId, evidenceId, claim.text, item⟩ .material := by
  by_cases held : before.verdict = .supported
  · obtain ⟨answers, each, settled⟩ := h.judged held
    have all := materialOutcome_supported.mp (by rw [← final, settled])
    refine ⟨held, fun evidenceId mem => ?_⟩
    obtain ⟨answer, among, item, _, said⟩ := forall₂_left_exists each mem
    exact ⟨item.exactQuote, all answer among ▸ said⟩
  · rw [h.kept held] at final
    exact absurd final held

theorem Weighed.untouched
    {claim : CitedClaim}
    (h : Weighed runtime fromStr generationSeed check requests evidence claim [] before after) :
    after = before := by
  by_cases held : before.verdict = .supported
  · obtain ⟨answers, each, settled⟩ := h.judged held
    cases each
    rw [settled, show materialOutcome [] = ClaimVerdict.supported from rfl, ← held]
  · exact h.kept held

theorem Guarded.supported {judge : String → List EvidenceItem → Bool}
    {claim : CitedClaim}
    (h : Guarded judge evidence claim before after) (final : after.verdict = .supported) :
    before.verdict = .supported ∧ ∃ cited, List.Forall₂ (fun evidenceId item =>
      evidence.reverse.find? (·.evidenceId = evidenceId) = some item) claim.evidenceIds cited ∧
      judge claim.text cited = true := by
  by_cases held : before.verdict = .supported
  · obtain ⟨cited, each, settled⟩ := h.judged held
    refine ⟨held, cited, each, ?_⟩
    by_contra fails
    rw [if_neg fails, final] at settled
    cases settled
  · rw [h.kept held] at final
    exact absurd final held

variable {batches : List VerificationBatch} {required : Option (List String)}
  {claim : CitedClaim} {final : ClaimVerification}

theorem SummaryOutcome.supported
    (h : SummaryOutcome runtime readers context synthesized requests batches required claim final)
    (stands : final.verdict = .supported) :
    Supported runtime readers context synthesized requests batches required claim := by
  obtain ⟨said, guarded, contributed, judged, guard, contributes, covers⟩ := h.steps
  have covered : contributed.verdict = .supported ∧ ∀ ids ∈ required,
      ∀ evidenceId ∈ claim.evidenceIds, evidenceId ∈ ids → ∃ item,
        PairAnswered runtime readers.fromMaterial context.generationSeed contractCheck requests
          ⟨claim.claimId, evidenceId, claim.text, item⟩ .material := by
    cases required with
    | none =>
        rw [covers] at stands
        exact ⟨stands, nofun⟩
    | some ids =>
        obtain ⟨before, all⟩ := covers.1.supported stands
        refine ⟨before, ?_⟩
        rintro _ ⟨⟩ evidenceId cited mem
        exact all evidenceId (List.mem_filter.mpr ⟨cited, by simpa using mem⟩)
  have contributing : guarded.verdict = .supported ∧ (context.profile = .general →
      wasTrimmed claim synthesized.warnings = true → ∀ evidenceId ∈ claim.evidenceIds, ∃ item,
        PairAnswered runtime readers.fromMaterial context.generationSeed contributionCheck requests
          ⟨claim.claimId, evidenceId, claim.text, item⟩ .material) := by
    split at contributes
    · obtain ⟨before, all⟩ := contributes.supported covered.1
      exact ⟨before, fun _ _ => all⟩
    · next other =>
        rw [contributes] at covered
        exact ⟨covered.1, fun general trimmed => absurd ⟨general, trimmed⟩ other⟩
  obtain ⟨before, cited, each, holds⟩ := guard.supported contributing.1
  refine ⟨?_, ⟨cited, each, holds⟩, contributing.2, covered.2⟩
  obtain ⟨batch, mem, inside, ordinal, response, raw, heard, read, perm, answers⟩ := judged.answered
  refine ⟨batch, mem, inside, ordinal, response, raw, heard, read, perm, rfl, rfl, ?_⟩
  rw [← before]
  exact answers.verdict

/-- Two steps over the same claims are one. -/
theorem chained {α β γ : Type} {R : α → β → Prop} {S : α → β → γ → Prop} {as : List α}
    {bs : List β} {cs : List γ} (first : List.Forall₂ R as bs)
    (second : List.Forall₂ (fun entry c => S entry.1 entry.2 c) (as.zip bs) cs) :
    List.Forall₂ (fun a c => ∃ b, R a b ∧ S a b c) as cs := by
  induction first generalizing cs with
  | nil =>
      cases second
      exact .nil
  | cons here _ ih =>
      obtain ⟨c, later, stands, rest, rfl⟩ := List.forall₂_cons_left_iff.mp second
      exact .cons ⟨_, here, stands⟩ (ih rest)

theorem Classified.judged {fromStr : String → Option RawVerificationResponse}
    {claims : List CitedClaim} {verifications : List ClaimVerification}
    (h : Classified runtime fromStr generationSeed requests claims verifications) :
    ∃ batches, batches.flatMap (·.claims) = claims ∧
      List.Forall₂ (Judged runtime fromStr generationSeed requests batches) claims
        verifications := by
  obtain ⟨batches, parts, rfl, rfl, each⟩ := h
  exact ⟨batches, rfl, judged_of_answered each⟩

variable {s s' : Conversation}

theorem ledgerVerdicts_ok (readsBack : ReadsBack readers.fromVerdicts)
    {said : List ClaimVerification}
    (run : ledgerVerdicts runtime readers context synthesized s = .ok said s') :
    s.requests <+: s'.requests ∧ ∃ batches, batches.flatMap (·.claims) = synthesized.claims ∧
      List.Forall₂ (Judged runtime readers.fromVerdicts context.generationSeed s'.requests batches)
        synthesized.claims said := by
  simp only [ledgerVerdicts, bind_ok_iff, pureStep_ok_iff] at run
  obtain ⟨prompt, _, ⟨_, rfl⟩, budget, _, ⟨_, rfl⟩, classified⟩ := run
  obtain ⟨grown, answered⟩ := classifyClaimSupport_ok readsBack classified
  exact ⟨grown, answered.judged⟩

theorem guardLedger_ok {said guarded : List ClaimVerification}
    (each : List.Forall₂ (Judged runtime readers.fromVerdicts context.generationSeed requests
      batches) synthesized.claims said)
    (guards : guardLedger context synthesized said = .ok guarded) :
    List.Forall₂ (LedgerOutcome runtime readers context synthesized requests batches)
      synthesized.claims guarded := by
  unfold guardLedger at guards
  split at guards
  · next fallback =>
      obtain ⟨_, guardedEach⟩ := applySemanticFidelityGuards_ok guards
      refine (chained each guardedEach).imp fun claim final h => ?_
      obtain ⟨said, judged, guard⟩ := h
      exact ⟨said, judged, by rw [if_pos fallback]; exact guard⟩
  · next other =>
      cases guards
      exact each.imp fun claim final judged => ⟨final, judged, by rw [if_neg other]⟩

theorem summaryVerdicts_ok (readsBack : ReadsBack readers.fromVerdicts)
    {said : List ClaimVerification}
    (run : summaryVerdicts runtime readers context synthesized s = .ok said s') :
    s.requests <+: s'.requests ∧ ∃ batches,
      batches.flatMap (·.claims) = synthesized.summaryClaims ∧
      List.Forall₂ (Judged runtime readers.fromVerdicts context.generationSeed s'.requests batches)
        synthesized.summaryClaims said := by
  unfold summaryVerdicts at run
  split at run
  · next none =>
      cases run
      exact ⟨List.prefix_rfl, [], none ▸ rfl, none ▸ .nil⟩
  · simp only [bind_ok_iff, pureStep_ok_iff] at run
    obtain ⟨prompt, _, ⟨_, rfl⟩, classified⟩ := run
    obtain ⟨grown, answered⟩ := classifyClaimSupport_ok readsBack classified
    exact ⟨grown, answered.judged⟩

/-- What became of a summary claim up to its sources. -/
structure ContributionOutcome (runtime : VerifierRuntime) (readers : VerdictReaders)
    (context : VerificationContext) (synthesized : SynthesizedDocument)
    (requests : List ModelRequest) (batches : List VerificationBatch) (claim : CitedClaim)
    (contributed : ClaimVerification) : Prop where
  steps : ∃ said guarded,
    Judged runtime readers.fromVerdicts context.generationSeed requests batches claim said ∧
    Guarded context.fidelitySupported synthesized.synthesisEvidence claim said guarded ∧
    if context.profile = .general ∧ wasTrimmed claim synthesized.warnings = true then
      Weighed runtime readers.fromMaterial context.generationSeed contributionCheck requests
        synthesized.synthesisEvidence claim claim.evidenceIds guarded contributed
    else contributed = guarded

theorem Weighed.same
    {claim : CitedClaim}
    {evidenceIds : List String}
    (h : Weighed runtime fromStr generationSeed check requests evidence claim evidenceIds before
      after) : after.claimId = before.claimId ∧ after.evidenceIds = before.evidenceIds := by
  by_cases held : before.verdict = .supported
  · obtain ⟨answers, _, settled⟩ := h.judged held
    simp [settled]
  · simp [h.kept held]

theorem ContributionOutcome.aligned {contributed : ClaimVerification}
    (h : ContributionOutcome runtime readers context synthesized requests batches claim
      contributed) :
    contributed.claimId = claim.claimId ∧ contributed.evidenceIds = claim.evidenceIds := by
  obtain ⟨said, guarded, _, guard, contributes⟩ := h.steps
  split at contributes
  · obtain ⟨claimId, evidenceIds⟩ := contributes.same
    exact ⟨claimId.trans guard.claimId, evidenceIds.trans guard.evidenceIds⟩
  · rw [contributes]
    exact ⟨guard.claimId, guard.evidenceIds⟩

theorem contributeSummary_ok (once : (synthesized.summaryClaims.map (·.claimId)).Nodup)
    {said guarded contributed : List ClaimVerification}
    (each : List.Forall₂ (Judged runtime readers.fromVerdicts context.generationSeed s.requests
      batches) synthesized.summaryClaims said)
    (guards : applySemanticFidelityGuards context.fidelitySupported synthesized.summaryClaims
      synthesized.synthesisEvidence said = .ok guarded)
    (run : contributeSummary runtime readers context synthesized guarded s = .ok contributed s') :
    s.requests <+: s'.requests ∧
      List.Forall₂ (ContributionOutcome runtime readers context synthesized s'.requests batches)
        synthesized.summaryClaims contributed := by
  obtain ⟨_, guardedEach⟩ := applySemanticFidelityGuards_ok guards
  have both := chained each guardedEach
  have aligned : List.Forall₂ (fun claim verification => verification.claimId = claim.claimId ∧
      verification.evidenceIds = claim.evidenceIds) synthesized.summaryClaims guarded := by
    refine both.imp fun claim guarded h => ?_
    obtain ⟨_, _, guard⟩ := h
    exact ⟨guard.claimId, guard.evidenceIds⟩
  unfold contributeSummary at run
  split at run
  · next general =>
      obtain ⟨grown, weighed⟩ := verifySourceContributions_ok once aligned run
      have steps := chained (S := fun claim guarded contributed =>
        (wasTrimmed claim synthesized.warnings = true → Weighed runtime readers.fromMaterial
          context.generationSeed contributionCheck s'.requests synthesized.synthesisEvidence claim
          claim.evidenceIds guarded contributed) ∧
        (wasTrimmed claim synthesized.warnings = false → contributed = guarded)) both weighed
      refine ⟨grown, steps.imp fun claim contributed h => ?_⟩
      obtain ⟨guarded, ⟨said, judged, guard⟩, trimmed, untouched⟩ := h
      refine ⟨said, guarded, judged.mono grown, guard, ?_⟩
      cases cut : wasTrimmed claim synthesized.warnings with
      | true =>
          rw [if_pos ⟨general, rfl⟩]
          exact trimmed cut
      | false =>
          rw [if_neg fun all => Bool.false_ne_true all.2]
          exact untouched cut
  · next other =>
      rw [pure_ok_iff] at run
      obtain ⟨rfl, rfl⟩ := run
      refine ⟨List.prefix_rfl, both.imp fun claim guarded h => ?_⟩
      obtain ⟨said, judged, guard⟩ := h
      exact ⟨said, guarded, judged, guard, by rw [if_neg fun all => other all.1]⟩

theorem coverSummary_ok (once : (synthesized.summaryClaims.map (·.claimId)).Nodup)
    {contributed final : List ClaimVerification}
    (each : List.Forall₂ (ContributionOutcome runtime readers context synthesized s.requests
      batches) synthesized.summaryClaims contributed)
    (run : coverSummary runtime readers context synthesized required contributed s =
      .ok final s') :
    s.requests <+: s'.requests ∧
      List.Forall₂ (SummaryOutcome runtime readers context synthesized s'.requests batches
        required) synthesized.summaryClaims final := by
  cases required with
  | none =>
      cases run
      refine ⟨List.prefix_rfl, each.imp fun claim final h => ?_⟩
      obtain ⟨said, guarded, judged, guard, contributes⟩ := h.steps
      exact ⟨said, guarded, final, judged, guard, contributes, rfl⟩
  | some ids =>
      obtain ⟨grown, weighed⟩ :=
        applyContractMaterialCoverage_ok once (each.imp fun _ _ h => h.aligned) run
      have steps := chained (S := fun claim contributed final =>
        Weighed runtime readers.fromMaterial context.generationSeed contractCheck s'.requests
          synthesized.synthesisEvidence claim (claim.evidenceIds.filter (· ∈ ids)) contributed
          final) each weighed
      refine ⟨grown, steps.imp fun claim final h => ?_⟩
      obtain ⟨contributed, before, covers⟩ := h
      obtain ⟨said, guarded, judged, guard, contributes⟩ := before.steps
      refine ⟨said, guarded, contributed, judged.mono grown, guard, ?_, covers, fun outside => ?_⟩
      swap
      · rw [List.filter_eq_nil_iff.mpr fun evidenceId mem => by simpa using outside evidenceId mem]
          at covers
        exact covers.untouched
      split at contributes
      · next trimmed =>
          rw [if_pos trimmed]
          exact contributes.mono grown
      · next other =>
          rw [if_neg other]
          exact contributes

theorem LedgerOutcome.mono {requests' : List ModelRequest} (longer : requests <+: requests')
    (h : LedgerOutcome runtime readers context synthesized requests batches claim final) :
    LedgerOutcome runtime readers context synthesized requests' batches claim final := by
  obtain ⟨said, judged, guard⟩ := h.steps
  exact ⟨said, judged.mono longer, guard⟩

theorem validateClaims_nodup {platform : TextPlatform} {documentId version : String}
    {order claimIds : List String} {signatures : List (String × List String)}
    {claims : List (CitedClaim × Nat)} {u : Unit}
    (checked : validateClaims platform documentId version order claimIds signatures claims =
      .ok u) :
    (claims.map (·.1.claimId)).Nodup ∧ ∀ claimId ∈ claimIds,
      claimId ∉ claims.map (·.1.claimId) := by
  induction claims generalizing claimIds signatures with
  | nil => simp
  | cons entry later ih =>
      simp only [validateClaims, peel_ok, refuseIf_eq_ok, not_or] at checked
      obtain ⟨_, ⟨_, _, _, _, fresh, _⟩, _, _, rest⟩ := checked
      obtain ⟨distinct, apart⟩ := ih rest
      obtain ⟨here, further⟩ := List.forall_mem_cons.mp apart
      rw [List.map_cons]
      refine ⟨List.nodup_cons.mpr ⟨here, distinct⟩, fun claimId mem => ?_⟩
      rw [List.mem_cons, not_or]
      refine ⟨fun same => fresh (same ▸ mem), further claimId mem⟩

theorem validateClaimsWithEvidence_nodup {platform : TextPlatform} {documentId version : String}
    {claims : List CitedClaim} {u : Unit}
    (checked : validateClaimsWithEvidence platform claims evidence documentId version = .ok u) :
    (claims.map (·.claimId)).Nodup := by
  simp only [validateClaimsWithEvidence, peel_ok] at checked
  obtain ⟨_, _, rest⟩ := checked
  have distinct : ((claims.zipIdx.map Prod.fst).map (·.claimId)).Nodup := by
    rw [List.map_map]
    exact (validateClaims_nodup rest).1
  rwa [List.zipIdx_map_fst] at distinct

theorem validateSynthesizedClaims_nodup {u : Unit}
    (checked : validateSynthesizedClaims context synthesized = .ok u) :
    (synthesized.claims.map (·.claimId)).Nodup ∧
      (synthesized.summaryClaims.map (·.claimId)).Nodup := by
  simp only [validateSynthesizedClaims, peel_ok] at checked
  obtain ⟨_, ledger, rest⟩ := checked
  refine ⟨validateClaimsWithEvidence_nodup ledger, ?_⟩
  split at rest
  · rw [peel_ok] at rest
    obtain ⟨_, summary, _⟩ := rest
    exact validateClaimsWithEvidence_nodup summary
  · simp only [peel_ok, refuseIf_eq_ok, not_not] at rest
    obtain ⟨_, none, _⟩ := rest
    simp [none]

/-- A run of `verify` settles every verdict by what was heard about that very claim. -/
theorem verifyClaims_ok (readsBack : ReadsBack readers.fromVerdicts)
    {ledger summary : List ClaimVerification}
    (run : verifyClaims runtime readers context synthesized s = .ok (ledger, summary) s') :
    ∃ ledgerBatches summaryBatches required, context.requiredEvidence = .ok required ∧
      (synthesized.claims.map (·.claimId)).Nodup ∧
      (synthesized.summaryClaims.map (·.claimId)).Nodup ∧
      ledgerBatches.flatMap (·.claims) = synthesized.claims ∧
      summaryBatches.flatMap (·.claims) = synthesized.summaryClaims ∧
      List.Forall₂ (LedgerOutcome runtime readers context synthesized s'.requests ledgerBatches)
        synthesized.claims ledger ∧
      List.Forall₂ (SummaryOutcome runtime readers context synthesized s'.requests summaryBatches
        required) synthesized.summaryClaims summary := by
  simp only [verifyClaims, bind_ok_iff, pureStep_ok_iff, pure_ok_iff, Prod.mk.injEq] at run
  obtain ⟨_, s₁, _, _, _, ⟨valid, rfl⟩, said, s₂, judges, guarded, _, ⟨guards, rfl⟩, _, s₃, checked,
    spoken, s₄, judges', fidel, _, ⟨fidelity, rfl⟩, contributed, s₅, contributes, required, _,
    ⟨needed, rfl⟩, final, s₆, covers, _, s₇, checked', ⟨rfl, rfl⟩, rfl⟩ := run
  obtain ⟨distinct, once⟩ := validateSynthesizedClaims_nodup valid
  obtain ⟨_, ledgerBatches, ledgerWhole, ledgerEach⟩ := ledgerVerdicts_ok readsBack judges
  obtain ⟨first, summaryBatches, summaryWhole, summaryEach⟩ := summaryVerdicts_ok readsBack judges'
  obtain ⟨second, contributedEach⟩ := contributeSummary_ok once summaryEach fidelity contributes
  obtain ⟨third, finalEach⟩ := coverSummary_ok once contributedEach covers
  have last := checkCancellation_requests checked'
  have longer : s₂.requests <+: s₇.requests := by
    rw [← checkCancellation_requests checked, last]
    exact first.trans (second.trans third)
  refine ⟨ledgerBatches, summaryBatches, required, needed, distinct, once, ledgerWhole,
    summaryWhole, ?_, last ▸ finalEach⟩
  exact (guardLedger_ok ledgerEach guards).imp fun _ _ h => h.mono longer

end Run

end DocumentSummarizer.Coherent
