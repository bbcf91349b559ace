import DocumentSummarizer.Pipeline.RequestSize
import Mathlib.Data.List.Chain

/-! # What the planner makes of the claims

The batches are the greedy parts of the claims.  Planning fails when a claim
that opens a part is too large alone, or when there are too many parts.
-/

namespace DocumentSummarizer.Pipeline

open Library

/-- Whether a request of the claims stays within the bounds, when it can be rendered. -/
def requestAdmits (limit : Nat) (claims : List PromptVerificationClaim) : Option Bool :=
  match requestPrompt claims with
  | .ok (userPrompt, _) =>
    some (decide (WithinBounds claims.length (modelFacingCharacters claims userPrompt) limit))
  | .error _ => none

/-- The greedy partition of the claims by the bounds of a request. -/
def greedyRequests (limit : Nat) (claims : List PromptVerificationClaim) :
    Option (List (List PromptVerificationClaim)) :=
  admittedParts (requestAdmits limit) [] claims

/-- A request of the claims breaks one of the limits. -/
def Exceeds (limit : Nat) (claims : List PromptVerificationClaim) : Prop :=
  maxVerificationClaimsPerRequest < claims.length ∨
    ∃ userPrompt ids, requestPrompt claims = .ok (userPrompt, ids) ∧
      limit < modelFacingCharacters claims userPrompt

/-- The batch is the request of the part. -/
structure Requests (limit : Nat) (part : List PromptVerificationClaim)
    (batch : VerificationBatch) : Prop where
  shows : List.Forall₂ Shows part batch.claims
  rendered : requestPrompt part = .ok (batch.userPrompt, batch.identifiers)
  system : batch.systemPrompt = verificationSystemPrompt part
  nonempty : batch.claims ≠ []
  few : batch.claims.length ≤ maxVerificationClaimsPerRequest
  fits : batch.systemPrompt.length + batch.userPrompt.length ≤ limit

/-- The batches are the claims in order, each as large as the limits allow. -/
structure Plans (prompt : VerificationPrompt) (claims : List CitedClaim) (limit : Nat)
    (batches : List VerificationBatch) : Prop where
  count : 1 ≤ batches.length ∧ batches.length ≤ maxVerificationBatches
  whole : batches.flatMap (·.claims) = claims
  requests : ∃ parts, parts.flatten = prompt.claims ∧
    List.Forall₂ (Requests limit) parts batches ∧
    parts.IsChain fun part later => ∀ next ∈ later.head?, Exceeds limit (part ++ [next])

/-- The prompt shows the claims, and they are within a valid budget. -/
structure Catalog (prompt : VerificationPrompt) (claims : List CitedClaim) (claimBudget : Nat) :
    Prop where
  budget : 1 ≤ claimBudget ∧ claimBudget ≤ legacyMaxSummaryClaims ∨ claimBudget = directMaxClaims
  nonempty : prompt.claims ≠ []
  within : claims.length ≤ claimBudget
  shows : List.Forall₂ Shows prompt.claims claims

section Requests

variable {limit : Nat} {claims : List PromptVerificationClaim} {claim : PromptVerificationClaim}

theorem withinBounds_alone {characters : Nat} :
    WithinBounds [claim].length characters limit ↔ characters ≤ limit := by
  simp [WithinBounds, maxVerificationClaimsPerRequest]

theorem requestAdmits_true :
    requestAdmits limit claims = some true ↔
      ∃ userPrompt ids, requestPrompt claims = .ok (userPrompt, ids) ∧
        WithinBounds claims.length (modelFacingCharacters claims userPrompt) limit := by
  unfold requestAdmits
  cases h : requestPrompt claims with
  | error e => simp
  | ok rendered => simp [Prod.ext_iff]

theorem requestAdmits_false (nonempty : claims ≠ []) :
    requestAdmits limit claims = some false → Exceeds limit claims := by
  unfold requestAdmits
  cases h : requestPrompt claims with
  | error e => simp
  | ok rendered =>
      intro refused
      have outside := of_decide_eq_false (Option.some.inj refused)
      by_cases many : maxVerificationClaimsPerRequest < claims.length
      · exact .inl many
      · refine .inr ⟨rendered.1, rendered.2, h, ?_⟩
        apply Nat.not_le.mp
        intro fits
        exact outside ⟨⟨List.length_pos_iff.mpr nonempty, Nat.not_lt.mp many⟩, fits⟩

/-- A claim is admitted alone when a request that starts with it is. -/
theorem requestAdmits_first {more : List PromptVerificationClaim}
    (h : requestAdmits limit (claim :: more) = some true)
    (alone : (requestAdmits limit [claim]).isSome) : requestAdmits limit [claim] = some true := by
  obtain ⟨userPrompt, ids, rendered, within⟩ := requestAdmits_true.mp h
  unfold requestAdmits at alone
  cases found : requestPrompt [claim] with
  | error e =>
      rw [found] at alone
      cases alone
  | ok own =>
      refine requestAdmits_true.mpr ⟨own.1, own.2, found, withinBounds_alone.mpr ?_⟩
      have shorter := modelFacingCharacters_alone rendered found List.mem_cons_self
        (Nat.le_of_eq (nameSize_first more).symm)
      exact Nat.le_trans shorter within.2

end Requests

section Planning

variable {limit : Nat} {batches : List VerificationBatch}

/-- A pair of a shown claim and a synthesized one is judged by the shown claim. -/
def pairAdmits (limit : Nat) (pairs : List (PromptVerificationClaim × CitedClaim)) : Option Bool :=
  requestAdmits limit (pairs.map (·.1))

/-- The batch of a part of the pairs. -/
def Materializes (limit : Nat) (part : List (PromptVerificationClaim × CitedClaim))
    (batch : VerificationBatch) : Prop :=
  materializeVerificationBatch (part.map (·.1)) (part.map (·.2)) limit = .ok batch

theorem materializes_iff {part : List (PromptVerificationClaim × CitedClaim)} :
    (∃ batch, Materializes limit part batch) ↔ pairAdmits limit part = some true := by
  simp only [Materializes, materializeVerificationBatch_ok, pairAdmits, requestAdmits_true,
    List.length_map]
  constructor
  · rintro ⟨_, userPrompt, ids, rendered, within, -⟩
    exact ⟨userPrompt, ids, rendered, within⟩
  · rintro ⟨userPrompt, ids, rendered, within⟩
    exact ⟨_, userPrompt, ids, rendered, within, rfl⟩

theorem planBatches_cons {pending rest : List (PromptVerificationClaim × CitedClaim)}
    {pair : PromptVerificationClaim × CitedClaim} :
    planBatches limit (pending.map (·.1)) (pending.map (·.2)) (pair :: rest) = .ok batches ↔
      (pairAdmits limit (pending ++ [pair]) = some true ∧
        planBatches limit ((pending ++ [pair]).map (·.1)) ((pending ++ [pair]).map (·.2)) rest =
          .ok batches) ∨
      (pairAdmits limit (pending ++ [pair]) = some false ∧ pending ≠ [] ∧
        ∃ batch later, Materializes limit pending batch ∧
          planBatches limit [pair.1] [pair.2] rest = .ok later ∧ batches = batch :: later) := by
  obtain ⟨promptClaim, claim⟩ := pair
  simp only [planBatches, serializedPrompt, pairAdmits, requestAdmits, List.map_append,
    List.map_cons, List.map_nil]
  cases requestPrompt (pending.map (·.1) ++ [promptClaim]) with
  | error e => simp [Except.mapError, Bind.bind, Except.bind]
  | ok rendered =>
      obtain ⟨userPrompt, ids⟩ := rendered
      by_cases within : WithinBounds (pending.map (·.1) ++ [promptClaim]).length
          (modelFacingCharacters (pending.map (·.1) ++ [promptClaim]) userPrompt) limit
      · simp only [Except.mapError, ok_bind rfl, within, if_true]
        simp
      · simp only [Except.mapError, ok_bind rfl, within, if_false]
        simp only [peel_ok, refuseIf_eq_ok, return_ok, List.map_eq_nil_iff, exists_const,
          Materializes]
        constructor
        · rintro ⟨some, batch, made, later, planned, rfl⟩
          exact .inr ⟨rfl, some, batch, later, made, planned, rfl⟩
        · rintro (⟨admitted, -⟩ | ⟨-, some, batch, later, made, planned, rfl⟩)
          · cases admitted
          · exact ⟨some, batch, made, later, planned, rfl⟩

theorem planBatches_ok {pending rest : List (PromptVerificationClaim × CitedClaim)} :
    planBatches limit (pending.map (·.1)) (pending.map (·.2)) rest = .ok batches ↔
      ∃ parts, admittedParts (pairAdmits limit) pending rest = some parts ∧
        List.Forall₂ (Materializes limit) parts batches := by
  induction rest generalizing pending batches with
  | nil =>
      by_cases none : pending = []
      · subst none
        simp [planBatches, admittedParts, eq_comm]
      · simp only [planBatches, admittedParts, List.map_eq_nil_iff, if_neg none, peel_ok, return_ok,
          Option.some.injEq, exists_eq_left', List.forall₂_cons_left_iff,
          List.forall₂_nil_left_iff]
        constructor
        · rintro ⟨batch, made, rfl⟩
          exact ⟨batch, [], made, rfl, rfl⟩
        · rintro ⟨batch, _, made, rfl, rfl⟩
          exact ⟨batch, made, rfl⟩
  | cons pair rest ih =>
      rw [planBatches_cons]
      have next : ∀ later, planBatches limit [pair.1] [pair.2] rest = .ok later ↔
          ∃ parts, admittedParts (pairAdmits limit) [pair] rest = some parts ∧
            List.Forall₂ (Materializes limit) parts later := fun later => @ih later [pair]
      constructor
      · rintro (⟨admitted, planned⟩ | ⟨full, some, batch, later, made, planned, rfl⟩)
        · obtain ⟨parts, found, each⟩ := ih.mp planned
          exact ⟨parts, admittedParts_cons.mpr (.inl ⟨.inl admitted, found⟩), each⟩
        · obtain ⟨parts, found, each⟩ := (next later).mp planned
          exact ⟨pending :: parts, admittedParts_cons.mpr (.inr ⟨full, some, parts, found, rfl⟩),
            .cons made each⟩
      · rintro ⟨parts, found, each⟩
        rcases admittedParts_cons.mp found with ⟨room, more⟩ | ⟨full, some, parts, behind, rfl⟩
        · refine .inl ⟨?_, ih.mpr ⟨parts, more, each⟩⟩
          rcases room with admitted | ⟨rfl, full⟩
          · exact admitted
          · -- the first part starts with a claim that is too large alone
            obtain ⟨others, behind, rfl⟩ := admittedParts_head (by simp) more
            obtain ⟨batch, _, made, -, -⟩ := List.forall₂_cons_left_iff.mp each
            have admitted := materializes_iff.mp ⟨batch, made⟩
            exact requestAdmits_first admitted (Option.isSome_iff_exists.mpr ⟨false, full⟩)
        · obtain ⟨batch, later, made, others, rfl⟩ := List.forall₂_cons_left_iff.mp each
          exact .inr ⟨full, some, batch, later, made, (next later).mpr ⟨parts, behind, others⟩, rfl⟩

theorem shows_iff {prompt : VerificationPrompt} {claims : List CitedClaim} :
    List.Forall₂ Shows prompt.claims claims ↔ prompt.claims.length = claims.length ∧
      ¬ ∃ pair ∈ prompt.claims.zip claims, ¬ Shows pair.1 pair.2 := by
  rw [List.forall₂_iff_zip]
  simp only [not_exists, not_and, not_not, Prod.forall]

theorem planVerificationBatches_ok {prompt : VerificationPrompt} {claims : List CitedClaim}
    {claimBudget : Nat} :
    planVerificationBatches prompt claims claimBudget limit = .ok batches ↔
      Catalog prompt claims claimBudget ∧
        planBatches limit [] [] (prompt.claims.zip claims) = .ok batches ∧
        1 ≤ batches.length ∧ batches.length ≤ maxVerificationBatches := by
  have catalog : Catalog prompt claims claimBudget ↔
      ¬ (¬ (1 ≤ claimBudget ∧ claimBudget ≤ legacyMaxSummaryClaims) ∧
        claimBudget ≠ directMaxClaims) ∧
      ¬ (prompt.claims = [] ∨ prompt.claims.length ≠ claims.length ∨
        claims.length > claimBudget ∨
        ∃ pair ∈ prompt.claims.zip claims, ¬ Shows pair.1 pair.2) := by
    constructor
    · intro h
      obtain ⟨length, all⟩ := shows_iff.mp h.shows
      refine ⟨fun invalid => h.budget.elim invalid.1 invalid.2, ?_⟩
      rintro (none | differ | many | other)
      · exact h.nonempty none
      · exact differ length
      · exact Nat.not_lt.mpr h.within many
      · exact all other
    · rintro ⟨budget, others⟩
      simp only [not_or, not_not, ne_eq] at others
      exact ⟨Classical.or_iff_not_imp_left.mpr fun wide => by
        by_contra other
        exact budget ⟨wide, other⟩, others.1, Nat.not_lt.mp others.2.2.1,
        shows_iff.mpr ⟨others.2.1, others.2.2.2⟩⟩
  rw [catalog]
  simp only [planVerificationBatches, ensureVerificationBatchCount, peel_ok, refuseIf_eq_ok,
    return_ok, exists_const]
  constructor
  · rintro ⟨budget, matching, planned, made, count, rfl⟩
    exact ⟨⟨budget, matching⟩, made, not_not.mp count⟩
  · rintro ⟨⟨budget, matching⟩, made, count⟩
    exact ⟨budget, matching, batches, made, not_not.mpr count, rfl⟩

end Planning

section Greedy

variable {prompt : VerificationPrompt} {claims : List CitedClaim} {claimBudget limit : Nat}
  {batches : List VerificationBatch}

theorem greedyRequests_zip (h : List.Forall₂ Shows prompt.claims claims) :
    (admittedParts (pairAdmits limit) [] (prompt.claims.zip claims)).map (·.map (·.map (·.1))) =
      greedyRequests limit prompt.claims := by
  have whole : (prompt.claims.zip claims).map Prod.fst = prompt.claims :=
    List.map_fst_zip (Nat.le_of_eq h.length_eq)
  rw [greedyRequests]
  exact (@admittedParts_map _ (requestAdmits limit) _ Prod.fst [] (prompt.claims.zip claims)).trans
    (by rw [whole, List.map_nil])

theorem materializes_claims {parts : List (List (PromptVerificationClaim × CitedClaim))}
    (each : List.Forall₂ (Materializes limit) parts batches) :
    batches.flatMap (·.claims) = parts.flatten.map (·.2) := by
  induction each with
  | nil => rfl
  | cons made _ ih =>
      obtain ⟨_, _, -, -, rfl⟩ := materializeVerificationBatch_ok.mp made
      rw [List.flatMap_cons, ih, List.flatten_cons, List.map_append]

theorem requests_of_materializes {part : List (PromptVerificationClaim × CitedClaim)}
    {batch : VerificationBatch} (shows : ∀ pair ∈ part, Shows pair.1 pair.2)
    (made : Materializes limit part batch) : Requests limit (part.map (·.1)) batch := by
  obtain ⟨userPrompt, ids, rendered, within, rfl⟩ := materializeVerificationBatch_ok.mp made
  refine ⟨?_, rendered, rfl, List.ne_nil_of_length_pos within.1.1, within.1.2, within.2⟩
  rw [List.forall₂_map_left_iff, List.forall₂_map_right_iff, List.forall₂_same]
  exact shows

theorem plans_of_ok (h : planVerificationBatches prompt claims claimBudget limit = .ok batches) :
    Plans prompt claims limit batches := by
  obtain ⟨catalog, planned, count⟩ := planVerificationBatches_ok.mp h
  obtain ⟨parts, found, each⟩ := (@planBatches_ok limit batches [] _).mp planned
  have length := catalog.shows.length_eq
  have flat := admittedParts_flatten found
  rw [List.nil_append] at flat
  have judged := admittedParts_admitted (fun several => absurd several (by simp)) found
  have shows : ∀ part ∈ parts, ∀ pair ∈ part, Shows pair.1 pair.2 := by
    intro part mem pair among
    have zipped : pair ∈ prompt.claims.zip claims := flat ▸ List.mem_flatten_of_mem mem among
    exact List.forall₂_zip catalog.shows zipped
  refine ⟨count, ?_, parts.map (·.map (·.1)), ?_, ?_, ?_⟩
  · rw [materializes_claims each, flat]
    exact List.map_snd_zip (Nat.le_of_eq length.symm)
  · rw [← List.map_flatten, flat]
    exact List.map_fst_zip (Nat.le_of_eq length)
  · rw [List.forall₂_map_left_iff]
    exact ((List.forall₂_and_left _ _).mpr ⟨shows, each⟩).imp fun part batch h =>
      requests_of_materializes h.1 h.2
  · rw [List.isChain_map]
    refine judged.maximal.imp fun part later full next first => ?_
    rw [List.head?_map] at first
    obtain ⟨pair, head, rfl⟩ := Option.mem_map.mp first
    refine requestAdmits_false (by simp) ?_
    have refused := full pair head
    rw [pairAdmits, List.map_append] at refused
    exact refused

/-- Planning succeeds for a catalog whose greedy parts are few and all admitted. -/
theorem plan_succeeds_iff :
    (∃ batches, planVerificationBatches prompt claims claimBudget limit = .ok batches) ↔
      Catalog prompt claims claimBudget ∧ ∃ parts, greedyRequests limit prompt.claims = some parts ∧
        parts.length ≤ maxVerificationBatches ∧
        ∀ part ∈ parts, requestAdmits limit part = some true := by
  simp only [planVerificationBatches_ok, exists_and_left]
  apply and_congr_right
  intro catalog
  rw [← greedyRequests_zip catalog.shows]
  constructor
  · rintro ⟨batches, planned, -, few⟩
    obtain ⟨parts, found, each⟩ := (@planBatches_ok limit batches [] _).mp planned
    refine ⟨parts.map (·.map (·.1)), by rw [found]; rfl, ?_, ?_⟩
    · rw [List.length_map, each.length_eq]
      exact few
    · intro part mem
      obtain ⟨pairs, among, rfl⟩ := List.mem_map.mp mem
      exact materializes_iff.mp (exists_forall₂_iff.mp ⟨batches, each⟩ pairs among)
  · rintro ⟨shown, image, few, admitted⟩
    obtain ⟨parts, found, rfl⟩ := Option.map_eq_some_iff.mp image
    have some : ∀ pairs ∈ parts, ∃ batch, Materializes limit pairs batch := by
      intro pairs mem
      have all : requestAdmits limit (pairs.map Prod.fst) = .some true :=
        admitted _ (List.mem_map_of_mem mem)
      exact materializes_iff.mpr all
    obtain ⟨batches, each⟩ := exists_forall₂_iff.mpr some
    have flat := admittedParts_flatten found
    rw [List.length_map, each.length_eq] at few
    refine ⟨batches, (@planBatches_ok limit batches [] _).mpr ⟨parts, found, each⟩, ?_, few⟩
    rw [← each.length_eq]
    apply List.length_pos_iff.mpr
    rintro rfl
    have none := congrArg List.length flat
    have some := List.length_pos_iff.mpr catalog.nonempty
    rw [List.nil_append, List.length_zip, ← catalog.shows.length_eq, Nat.min_self] at none
    simp only [List.flatten_nil, List.length_nil] at none
    omega

variable {parts : List (List PromptVerificationClaim)}

theorem greedyRequests_admitted
    (found : greedyRequests limit prompt.claims = some parts) :
    Admitted (requestAdmits limit) parts :=
  admittedParts_admitted (fun several => absurd several (by simp)) found

/-- The parts are all admitted unless a claim that is a part of its own is not. -/
theorem admitted_or_alone
    (judged : Admitted (requestAdmits limit) parts) :
    (∀ part ∈ parts, requestAdmits limit part = some true) ↔
      ¬ ∃ claim, [claim] ∈ parts ∧ requestAdmits limit [claim] ≠ some true := by
  constructor
  · rintro all ⟨claim, mem, refused⟩
    exact refused (all [claim] mem)
  · intro alone part mem
    by_contra refused
    by_cases several : 2 ≤ part.length
    · exact refused (judged.admitted part mem several)
    · have some := List.length_pos_iff.mpr (judged.nonempty part mem)
      obtain ⟨claim, rfl⟩ := List.length_eq_one_iff.mp (by omega : part.length = 1)
      exact alone ⟨claim, mem, refused⟩

theorem exceeds_alone (identified : Identified prompt.claims) {claim : PromptVerificationClaim}
    (mem : claim ∈ prompt.claims) :
    requestAdmits limit [claim] ≠ some true ↔ Exceeds limit [claim] := by
  obtain ⟨userPrompt, ids, rendered⟩ :=
    identified.requestPrompt_ok (by simp) (List.singleton_sublist.mpr mem)
  constructor
  · intro refused
    refine .inr ⟨userPrompt, ids, rendered, Nat.not_le.mp fun fits => refused ?_⟩
    exact requestAdmits_true.mpr ⟨userPrompt, ids, rendered, withinBounds_alone.mpr fits⟩
  · rintro (many | ⟨_, _, again, large⟩) admitted
    · exact absurd many (by simp [maxVerificationClaimsPerRequest])
    · obtain ⟨_, _, rendered', within⟩ := requestAdmits_true.mp admitted
      rw [again] at rendered'
      cases rendered'
      exact Nat.not_lt.mpr within.2 large

/-- Where no claim cites an evidence twice, a claim that is too large alone is a part. -/
theorem alone_of_exceeds (identified : Identified prompt.claims)
    (distinct : ∀ claim ∈ prompt.claims, (claim.evidence.map (·.evidenceId)).Nodup)
    (found : greedyRequests limit prompt.claims = some parts) :
    (∃ claim, [claim] ∈ parts ∧ requestAdmits limit [claim] ≠ some true) ↔
      ∃ claim ∈ prompt.claims, Exceeds limit [claim] := by
  have judged := greedyRequests_admitted found
  have flat := admittedParts_flatten found
  rw [List.nil_append] at flat
  constructor
  · rintro ⟨claim, mem, refused⟩
    have among : claim ∈ prompt.claims := flat ▸ List.mem_flatten_of_mem mem List.mem_cons_self
    exact ⟨claim, among, (exceeds_alone identified among).mp refused⟩
  · rintro ⟨claim, among, large⟩
    have refused := (exceeds_alone identified among).mpr large
    obtain ⟨part, mem, inside⟩ := List.mem_flatten.mp (flat ▸ among : claim ∈ parts.flatten)
    by_contra none
    -- a request with the claim is admitted, and the claim takes no more room alone
    obtain ⟨userPrompt, ids, rendered, within⟩ :=
      requestAdmits_true.mp ((admitted_or_alone judged).mpr none part mem)
    obtain ⟨own, ownIds, alone⟩ :=
      identified.requestPrompt_ok (by simp) (List.singleton_sublist.mpr among)
    have names := nameSize_alone (part.map (·.claimId)) (distinct claim among)
      fun item => mem_citedEvidence inside
    have shorter := modelFacingCharacters_alone rendered alone inside names
    exact refused (requestAdmits_true.mpr ⟨own, ownIds, alone,
      withinBounds_alone.mpr (Nat.le_trans shorter within.2)⟩)

theorem greedyRequests_isSome (identified : Identified prompt.claims) :
    ∃ parts, greedyRequests limit prompt.claims = some parts := by
  apply Option.isSome_iff_exists.mp
  apply admittedParts_isSome
  intro part nonempty inside
  obtain ⟨userPrompt, ids, rendered⟩ := identified.requestPrompt_ok nonempty inside.sublist
  unfold requestAdmits
  rw [rendered]
  rfl

end Greedy

/-- A plan cuts the claims greedily.  Planning fails when the prompt is no catalog of the claims,
when a request cannot be rendered, when a claim that opens a part is too large alone, and when there
are too many parts; and where the claims are identified and none cites an evidence twice, when any
claim is too large alone. -/
theorem plan_verification_batches (prompt : VerificationPrompt) (claims : List CitedClaim)
    (claimBudget limit : Nat) :
    (∀ batches, planVerificationBatches prompt claims claimBudget limit = .ok batches →
      Plans prompt claims limit batches) ∧
    ((∀ batches, planVerificationBatches prompt claims claimBudget limit ≠ .ok batches) ↔
      ¬ Catalog prompt claims claimBudget ∨ greedyRequests limit prompt.claims = none ∨
        ∃ parts, greedyRequests limit prompt.claims = some parts ∧
          ((∃ claim, [claim] ∈ parts ∧ requestAdmits limit [claim] ≠ some true) ∨
            maxVerificationBatches < parts.length)) ∧
    (Catalog prompt claims claimBudget → Identified prompt.claims →
      (∀ claim ∈ prompt.claims, (claim.evidence.map (·.evidenceId)).Nodup) →
      ((∀ batches, planVerificationBatches prompt claims claimBudget limit ≠ .ok batches) ↔
        (∃ claim ∈ prompt.claims, Exceeds limit [claim]) ∨
          ∃ parts, greedyRequests limit prompt.claims = some parts ∧
            maxVerificationBatches < parts.length)) := by
  have fails : (∀ batches, planVerificationBatches prompt claims claimBudget limit ≠ .ok batches) ↔
      ¬ Catalog prompt claims claimBudget ∨ greedyRequests limit prompt.claims = none ∨
        ∃ parts, greedyRequests limit prompt.claims = some parts ∧
          ((∃ claim, [claim] ∈ parts ∧ requestAdmits limit [claim] ≠ some true) ∨
            maxVerificationBatches < parts.length) := by
    rw [← not_exists, plan_succeeds_iff, not_and_or]
    apply or_congr_right
    cases found : greedyRequests limit prompt.claims with
    | none => simp
    | some parts =>
        have alone := admitted_or_alone (greedyRequests_admitted found)
        simp only [Option.some.injEq, exists_eq_left', alone, reduceCtorEq, false_or, not_and_or,
          not_not, Nat.not_le]
        exact or_comm
  refine ⟨fun batches => plans_of_ok, fails, fun catalog identified distinct => ?_⟩
  obtain ⟨parts, found⟩ := @greedyRequests_isSome prompt limit identified
  have alone := alone_of_exceeds identified distinct found
  rw [fails, found]
  simp only [catalog, not_true_eq_false, false_or, reduceCtorEq, Option.some.injEq,
    exists_eq_left', alone]

/-! ## Samples -/

/-- When the plan of two claims that share a quotation fails. -/
theorem shared_quotation_plan :
    (∀ batches, planVerificationBatches sampleVerificationPrompt sampleCitedClaims 64 10752 ≠
      .ok batches) ↔
      (∃ claim ∈ sampleVerificationPrompt.claims, Exceeds 10752 [claim]) ∨
        ∃ parts, greedyRequests 10752 sampleVerificationPrompt.claims = some parts ∧
          maxVerificationBatches < parts.length := by
  refine (plan_verification_batches _ _ _ _).2.2 ⟨.inl (by decide), ?_, by decide, ?_⟩
    ⟨by decide +kernel, by decide +kernel, ?_, by decide +kernel⟩ (by decide +kernel)
  · simp [sampleVerificationPrompt]
  · exact .cons ⟨rfl, rfl, rfl⟩ (.cons ⟨rfl, rfl, rfl⟩ .nil)
  · simp [sampleVerificationPrompt]

/-- A claim that cites one evidence over and over, behind nine others. -/
def sampleRepeatedClaim : PromptVerificationClaim :=
  ⟨"b", "", none, ((List.range 9).map fun i => ⟨"x" ++ toString i, ""⟩) ++
    List.replicate 90 ⟨"y", ""⟩⟩

/-- A claim that names the repeated evidence first. -/
def sampleNamingClaim : PromptVerificationClaim :=
  ⟨"a", "", none, [⟨"y", ""⟩]⟩

def sampleRepeatedPrompt : VerificationPrompt :=
  ⟨[sampleNamingClaim, sampleRepeatedClaim]⟩

def sampleRepeatedClaims : List CitedClaim :=
  [⟨"a", "", ["y"]⟩, ⟨"b", "", sampleRepeatedClaim.evidence.map (·.evidenceId)⟩]

theorem sampleRepeatedClaim_shorter {together alone : String} {ids ownIds : RequestIds}
    (h : requestPrompt sampleRepeatedPrompt.claims = .ok (together, ids))
    (h' : requestPrompt [sampleRepeatedClaim] = .ok (alone, ownIds)) :
    modelFacingCharacters sampleRepeatedPrompt.claims together <
      modelFacingCharacters [sampleRepeatedClaim] alone :=
  modelFacingCharacters_pair_lt h h' rfl (by decide +kernel)

/-- Nothing is too large and there are no parts, but an empty prompt is refused; and a claim that is
too large alone is planned with another claim, which shortens its names. -/
theorem empty_prompt_fails_and_long_claim_passes :
    ((∀ batches, planVerificationBatches ⟨[]⟩ [] 64 10752 ≠ .ok batches) ∧
      greedyRequests 10752 [] = some [] ∧
      ¬ ∃ claim ∈ ([] : List PromptVerificationClaim), Exceeds 10752 [claim]) ∧
    ∃ limit batches,
      planVerificationBatches sampleRepeatedPrompt sampleRepeatedClaims 64 limit = .ok batches ∧
      ∃ claim ∈ sampleRepeatedPrompt.claims, Exceeds limit [claim] := by
  refine ⟨⟨nofun, rfl, by simp⟩, ?_⟩
  obtain ⟨⟨together, ids⟩, rendered⟩ := exists_ok
    (show (requestPrompt sampleRepeatedPrompt.claims).isOk = true by decide +kernel)
  obtain ⟨⟨alone, ownIds⟩, longer⟩ := exists_ok
    (show (requestPrompt [sampleRepeatedClaim]).isOk = true by decide +kernel)
  obtain ⟨⟨first, firstIds⟩, opened⟩ := exists_ok
    (show (requestPrompt [sampleNamingClaim]).isOk = true by decide +kernel)
  have both : requestAdmits (modelFacingCharacters sampleRepeatedPrompt.claims together)
      sampleRepeatedPrompt.claims = some true :=
    requestAdmits_true.mpr ⟨together, ids, rendered, ⟨by decide, by decide⟩, Nat.le_refl _⟩
  have naming := requestAdmits_first both
    (by rw [requestAdmits, opened]; rfl)
  have catalog : Catalog sampleRepeatedPrompt sampleRepeatedClaims 64 :=
    ⟨.inl (by decide), by simp [sampleRepeatedPrompt], by decide,
      .cons ⟨rfl, rfl, rfl⟩ (.cons ⟨rfl, rfl, rfl⟩ .nil)⟩
  have parts : greedyRequests (modelFacingCharacters sampleRepeatedPrompt.claims together)
      sampleRepeatedPrompt.claims = some [sampleRepeatedPrompt.claims] := by
    refine admittedParts_cons.mpr (.inl ⟨.inl naming, ?_⟩)
    exact admittedParts_cons.mpr (.inl ⟨.inl both, rfl⟩)
  obtain ⟨batches, planned⟩ := plan_succeeds_iff.mpr
    ⟨catalog, [sampleRepeatedPrompt.claims], parts, by decide, by simpa using both⟩
  exact ⟨_, batches, planned, sampleRepeatedClaim, by simp [sampleRepeatedPrompt],
    .inr ⟨alone, ownIds, longer, sampleRepeatedClaim_shorter rendered longer⟩⟩

end DocumentSummarizer.Pipeline
