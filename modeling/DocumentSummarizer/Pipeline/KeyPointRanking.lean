import DocumentSummarizer.Pipeline.KeyPoints

/-! # Key points are ranked within bounds

A round of the ranking leaves fewer candidates than it had and no fewer than eight, the
requests of all rounds stay within their number, and what is recorded is what a reader of
the artifact accepts.
-/

namespace DocumentSummarizer.Pipeline.KeyPoints

open Library Gateway

/-! ## Candidates -/

theorem buildFrom_spec {analyzed : AnalyzedDocument} {start : Nat} {claims : List CitedClaim}
    {candidates : List Candidate} (built : buildFrom analyzed start claims = .ok candidates) :
    candidates.map (·.claimId) = claims.map (·.claimId) ∧
      candidates.map (·.sourceIndex) = List.range' start claims.length := by
  induction claims generalizing start candidates with
  | nil =>
      cases built
      exact ⟨rfl, rfl⟩
  | cons claim later ih =>
      simp only [buildFrom, peel_ok, return_ok] at built
      obtain ⟨candidate, first, others, rest, rfl⟩ := built
      obtain ⟨ids, indices⟩ := ih rest
      simp only [buildCandidate, peel_ok, return_ok] at first
      obtain ⟨_, _, _, _, _, _, rfl⟩ := first
      exact ⟨by simp [ids], by simp [indices, List.range'_succ]⟩

/-- Candidates in source order. -/
def InSourceOrder (candidates : List Candidate) : Prop :=
  candidates.Pairwise fun a b => a.sourceIndex < b.sourceIndex

theorem buildCandidates_spec {analyzed : AnalyzedDocument} {claims : List CitedClaim}
    {candidates : List Candidate} (built : buildCandidates claims analyzed = .ok candidates) :
    candidates.map (·.claimId) = claims.map (·.claimId) ∧ InSourceOrder candidates := by
  obtain ⟨ids, indices⟩ := buildFrom_spec built
  refine ⟨ids, ?_⟩
  have sorted : (candidates.map (·.sourceIndex)).Pairwise (· < ·) := by
    rw [indices]
    exact List.pairwise_lt_range'
  exact List.pairwise_map.mp sorted

/-! ## Batches -/

theorem batchFits_true {proposed : List Candidate} {limit : Nat}
    (fits : batchFits proposed limit = .ok true) : proposed.length ≤ maxCandidatesPerRequest := by
  unfold batchFits at fits
  split at fits
  · next small => exact small
  · cases fits

/-- Batches that are not empty, no larger than a request, and together the candidates. -/
structure Batched (candidates : List Candidate) (batches : List (List Candidate)) : Prop where
  whole : batches.flatten = candidates
  nonempty : ∀ batch ∈ batches, batch ≠ []
  small : ∀ batch ∈ batches, batch.length ≤ maxCandidatesPerRequest

variable {batches : List (List Candidate)}

theorem fillBatches_batched {limit : Nat} {current candidates : List Candidate}
    (small : current.length ≤ maxCandidatesPerRequest)
    (filled : fillBatches limit current candidates = .ok batches) :
    Batched (current ++ candidates) batches := by
  induction candidates generalizing current batches with
  | nil =>
      cases filled
      cases current with
      | nil => exact ⟨rfl, by simp, by simp⟩
      | cons candidate others => exact ⟨by simp, by simp, by simpa using small⟩
  | cons candidate later ih =>
      simp only [fillBatches, peel_ok] at filled
      obtain ⟨fits, asked, filled⟩ := filled
      cases fits with
      | true =>
          simp only [if_true] at filled
          have rest := ih (batchFits_true asked) filled
          rwa [List.append_assoc] at rest
      | false =>
          simp only [Bool.false_eq_true, if_false, peel_ok, refuseIf_eq_ok, return_ok] at filled
          obtain ⟨_, nonempty, _, _, _, _, behind, further, rfl⟩ := filled
          have rest := ih (by simp [maxCandidatesPerRequest]) further
          refine ⟨?_, ?_, ?_⟩
          · rw [List.flatten_cons, rest.whole, List.singleton_append]
          · exact List.forall_mem_cons.mpr ⟨by simpa using nonempty, rest.nonempty⟩
          · exact List.forall_mem_cons.mpr ⟨small, rest.small⟩

theorem planBatches_batched {candidates : List Candidate} {limit : Nat}
    (planned : planBatches candidates limit = .ok batches) :
    (batches = [candidates] ∨ Batched candidates batches) ∧ batches.length ≤ maxRequests := by
  have filled (run : planFilled candidates limit = .ok batches) :
      Batched candidates batches ∧ batches.length ≤ maxRequests := by
    simp only [planFilled, peel_ok, refuseIf_eq_ok, return_ok] at run
    obtain ⟨batches', filled, _, bounded, rfl⟩ := run
    refine ⟨?_, by omega⟩
    have batched := fillBatches_batched (by simp [maxCandidatesPerRequest]) filled
    simpa using batched
  unfold planBatches at planned
  split at planned
  · simp only [peel_ok] at planned
    obtain ⟨characters, _, planned⟩ := planned
    split at planned
    · cases planned
      exact ⟨.inl rfl, by simp [maxRequests]⟩
    · exact ⟨.inr (filled planned).1, (filled planned).2⟩
  · exact ⟨.inr (filled planned).1, (filled planned).2⟩

theorem planned_mem {candidates batch : List Candidate} {limit : Nat}
    (planned : planBatches candidates limit = .ok batches)
    (mem : batch ∈ batches) : ∀ candidate ∈ batch, candidate ∈ candidates := by
  intro candidate held
  rcases (planBatches_batched planned).1 with rfl | batched
  · rw [List.mem_singleton] at mem
    exact mem ▸ held
  · rw [← batched.whole]
    exact List.mem_flatten.mpr ⟨batch, mem, held⟩

/-! ## Quotas -/

/-- One share for every batch. -/
def initialShares (batches : List (List Candidate)) : List Share :=
  batches.map fun batch => ⟨batch.length, 1⟩

theorem initialShares_quotaTotal (batches : List (List Candidate)) :
    quotaTotal (initialShares batches) = batches.length := by
  simp [quotaTotal, initialShares, Function.comp_def]

theorem initialShares_sizeTotal (batches : List (List Candidate)) :
    sizeTotal (initialShares batches) = (batches.map List.length).sum := by
  simp [sizeTotal, initialShares, Function.comp_def]

theorem initialShares_within
    (nonempty : ∀ batch ∈ batches, batch ≠ []) :
    ∀ share ∈ initialShares batches, share.quota ≤ share.size := by
  intro share mem
  obtain ⟨batch, held, rfl⟩ := List.mem_map.mp mem
  exact List.length_pos_iff.mpr (nonempty batch held)

theorem quotas_within {shares : List Share}
    (sizes : shares.map Share.size = batches.map List.length)
    (within : ∀ share ∈ shares, share.quota ≤ share.size) :
    List.Forall₂ (fun quota (batch : List Candidate) => quota ≤ batch.length)
      (shares.map (·.quota)) batches := by
  induction batches generalizing shares with
  | nil =>
      rw [List.map_nil, List.map_eq_nil_iff] at sizes
      subst sizes
      exact .nil
  | cons batch later ih =>
      cases shares with
      | nil => simp at sizes
      | cons share others =>
          obtain ⟨first, rest⟩ := List.forall_mem_cons.mp within
          simp only [List.map_cons, List.cons.injEq] at sizes
          exact .cons (sizes.1 ▸ first) (ih sizes.2 rest)

theorem shortlistQuotas_spec {quotas : List Nat}
    (nonempty : ∀ batch ∈ batches, batch ≠ []) (asked : shortlistQuotas batches = .ok quotas) :
    quotas.sum = max targetCount batches.length ∧
      List.Forall₂ (fun quota (batch : List Candidate) => quota ≤ batch.length) quotas batches := by
  unfold shortlistQuotas at asked
  split at asked
  · next many =>
      cases asked
      refine ⟨by simp [Nat.max_eq_right many], ?_⟩
      clear many
      induction batches with
      | nil => exact .nil
      | cons batch later ih =>
          obtain ⟨first, rest⟩ := List.forall_mem_cons.mp nonempty
          exact .cons (List.length_pos_iff.mpr first) (ih rest)
  · next few =>
      simp only [peel_ok, refuseIf_eq_ok, okOrElse_eq_ok, return_ok] at asked
      obtain ⟨_, _, shares, given, rfl⟩ := asked
      obtain ⟨apportioned, total⟩ := @apportion_spec _ (initialShares batches) _ given
      rw [initialShares_quotaTotal] at total
      refine ⟨?_, ?_⟩
      · show quotaTotal shares = _
        omega
      · apply quotas_within
        · rw [apportioned.sizes]
          simp [initialShares, Function.comp_def]
        · exact apportioned.within (initialShares_within nonempty)

theorem shortlistQuotas_satisfiable
    (few : batches.length < targetCount)
    (total : targetCount < (batches.map List.length).sum) :
    shortlistQuotas batches ≠ .error insufficientBatches ∧
      (2 ≤ batches.length → (∀ batch ∈ batches, batch ≠ []) →
        ∃ quotas, shortlistQuotas batches = .ok quotas) := by
  have room (nonempty : ∀ batch ∈ batches, batch ≠ []) :
      ∃ shares, apportion (targetCount - batches.length) (initialShares batches) = some shares := by
    apply Option.isSome_iff_exists.mp
    apply apportion_isSome (initialShares_within nonempty)
    rw [initialShares_quotaTotal, initialShares_sizeTotal]
    omega
  have short : ¬ batches.length ≥ targetCount := by omega
  by_cases unusable : batches.length < 2 ∨ ∃ batch ∈ batches, batch = []
  · constructor
    · rw [shortlistQuotas, if_neg short, refuseIf, if_pos unusable]
      intro same
      have messages : ("A multi-request Key Point shortlist requires at least two nonempty batches" :
          String) = "Key Point shortlist batches cannot supply eight distinct candidates" :=
        congrArg PipelineFailure.message (Except.error.inj same)
      exact absurd messages (by decide)
    · intro several nonempty
      rcases unusable with single | ⟨batch, mem, none⟩
      · omega
      · exact absurd none (nonempty batch mem)
  · have nonempty : ∀ batch ∈ batches, batch ≠ [] := by
      intro batch mem none
      exact unusable (.inr ⟨batch, mem, none⟩)
    obtain ⟨shares, given⟩ := room nonempty
    have answer : shortlistQuotas batches = .ok (shares.map (·.quota)) := by
      rw [shortlistQuotas, if_neg short, refuseIf_of_not unusable]
      show (okOrElse (apportion _ (initialShares batches)) insufficientBatches >>= _) = _
      rw [given]
      rfl
    exact ⟨by simp [answer], fun _ _ => ⟨_, answer⟩⟩

/-! ## One request -/

theorem serializedPrompt_ids {candidates : List Candidate} {requestedCount : Nat}
    {prompt : String × RequestIds}
    (serialized : serializedPrompt candidates requestedCount = .ok prompt) :
    prompt.2.durable = candidates.map (·.claimId) := by
  simp only [serializedPrompt, peel_ok, return_ok] at serialized
  obtain ⟨identifiers, fresh, _, _, rfl⟩ := serialized
  exact (RequestIds.new_ok fresh).1

theorem restored_nodup {identifiers : RequestIds} {names ids : List String}
    (restored : List.Forall₂
      (fun name id => rename identifiers.locals identifiers.durable name = some id) names ids)
    (distinct : names.Nodup) : ids.Nodup := by
  induction restored with
  | nil => exact .nil
  | @cons name id names ids here rest ih =>
      obtain ⟨fresh, further⟩ := List.nodup_cons.mp distinct
      refine List.nodup_cons.mpr ⟨?_, ih further⟩
      intro repeated
      obtain ⟨i, inside, same⟩ := List.mem_iff_getElem.mp repeated
      have named := (List.forall₂_iff_get.mp rest).2 i (by rw [rest.length_eq]; exact inside) inside
      simp only [List.get_eq_getElem, same] at named
      have := rename_inj identifiers.locals_nodup identifiers.durable_nodup here named
      exact fresh (this ▸ List.getElem_mem _)

theorem parseResponse_spec {fromStr : String → Option (List String)} {response : String}
    {identifiers : RequestIds} {requestedCount : Nat} {ids : List String}
    (parsed : parseResponse fromStr response identifiers requestedCount = .ok ids) :
    ids.length = requestedCount ∧ ids.Nodup ∧ ∀ id ∈ ids, id ∈ identifiers.durable := by
  simp only [parseResponse, peel_ok, okOrElse_eq_ok, refuseIf_eq_ok, mapError_ok_iff,
    mapM_ok_iff, RequestIds.restore_ok] at parsed
  obtain ⟨names, _, _, counted, restored⟩ := parsed
  simp only [not_or, ne_eq, Decidable.not_not] at counted
  have distinct : names.Nodup := by
    rw [← List.dedup_eq_self]
    apply (List.dedup_sublist names).eq_of_length
    rw [counted.1, counted.2]
  refine ⟨by rw [← restored.length_eq, counted.1], ?_, ?_⟩
  · exact restored_nodup restored distinct
  · intro id mem
    obtain ⟨i, inside, same⟩ := List.mem_iff_getElem.mp mem
    have named := (List.forall₂_iff_get.mp restored).2 i (by rw [restored.length_eq]; exact inside)
      inside
    simp only [List.get_eq_getElem, same] at named
    exact (rename_mem identifiers.locals_nodup named).2

section Requests

variable {runtime : ModelRuntime} {fromStr : String → Option (List String)}
  {candidates : List Candidate} {requestedCount generationSeed : Nat} {s s' : Conversation}
  {ids : List String}

theorem requestSelection_ok
    (run : requestSelection runtime fromStr candidates requestedCount generationSeed s = .ok ids s') :
    ids.length = requestedCount ∧ ids.Nodup ∧ ∀ id ∈ ids, id ∈ candidates.map (·.claimId) := by
  simp only [requestSelection, bind_ok_iff, pureStep_ok_iff] at run
  obtain ⟨_, _, _, _, _, _, _, _, _, _, _, ⟨serialized, _⟩, _, _, _, _, _, _, _, _, _, _, _, _, _, _,
    _, parsed, _⟩ := run
  obtain ⟨counted, distinct, known⟩ := parseResponse_spec parsed
  rw [serializedPrompt_ids serialized] at known
  exact ⟨counted, distinct, known⟩

/-- The requests that were sent since a selection began are those it has counted. -/
structure Counted (before : Nat) (s : Conversation) : Prop where
  sent : s.requests.length ≤ before + s.requestCount
  bounded : s.requestCount ≤ maxRequests

theorem requestSelection_counted {before : Nat} :
    Keeps (Counted before)
      (requestSelection runtime fromStr candidates requestedCount generationSeed) := by
  have checked : Keeps (Counted before) (checkCancellation runtime .verify) :=
    keeps_checkCancellation fun _ held => ⟨held.sent, held.bounded⟩
  intro s held
  have here := checked s held
  unfold requestSelection
  rw [endState_bind]
  unfold endState at here
  cases check : checkCancellation runtime .verify s with
  | error e s₁ =>
      rw [check] at here
      exact here
  | ok u s₁ =>
      rw [check] at here
      show Counted before (endState (pureStep _ >>= _) s₁)
      rw [endState_bind]
      by_cases refused : requestedCount = 0 ∨ requestedCount > targetCount ∨
          requestedCount > candidates.length ∨ s₁.requestCount ≥ maxRequests
      · rw [refuseIf, if_pos refused]
        exact here
      · have room : s₁.requestCount < maxRequests := by omega
        rw [refuseIf_of_not refused]
        show Counted before (endState (pureStep _ >>= _) s₁)
        rw [endState_bind]
        cases serializedPrompt candidates requestedCount with
        | error e => exact here
        | ok prompt =>
            show Counted before (endState (reserveModelRequestOrdinal _ >>= _) s₁)
            rw [endState_bind]
            have reserved : Keeps (fun s => Counted before s ∧ s.requestCount < maxRequests)
                (reserveModelRequestOrdinal .verify) :=
              keeps_reserveModelRequestOrdinal fun _ held => ⟨⟨held.1.sent, held.1.bounded⟩, held.2⟩
            have there := reserved s₁ ⟨here, room⟩
            unfold endState at there
            cases reserve : reserveModelRequestOrdinal .verify s₁ with
            | error e s₂ =>
                rw [reserve] at there
                exact there.1
            | ok ordinal s₂ =>
                rw [reserve] at there
                simp only at there
                obtain ⟨counted, room⟩ := there
                show Counted before (endState (exchange runtime _ >>= _) s₂)
                rw [endState_bind]
                have sent : Counted before
                    { s₂ with
                      requestCount := s₂.requestCount + 1
                      requests := s₂.requests ++
                        [⟨.verify, ordinal, systemPrompt, prompt.1, generationSeed, outputTokens,
                          .jsonSchema schemaName
                            (outputSchema prompt.2.vocabulary requestedCount)⟩] } := by
                  refine ⟨?_, room⟩
                  have := counted.sent
                  simp only [List.length_append, List.length_singleton]
                  omega
                apply keeps_bind checked _ _ sent
                intro _
                exact keeps_bind (keeps_pureStep _) fun _ =>
                  keeps_bind (keeps_pureStep _) fun _ => keeps_pureStep _

theorem requestShortlists_counted {before : Nat} (round : List (List Candidate × Nat)) :
    Keeps (Counted before) (requestShortlists runtime fromStr generationSeed round) := by
  induction round with
  | nil => exact keeps_pure _
  | cons first later ih =>
      exact keeps_bind requestSelection_counted fun _ => keeps_bind ih fun _ => keeps_pure _

theorem reductionRound_counted {before : Nat} (batches : List (List Candidate)) :
    Keeps (Counted before)
      (reductionRound runtime fromStr generationSeed candidates batches) :=
  keeps_bind (keeps_pureStep _) fun _ =>
    keeps_bind (requestShortlists_counted _) fun _ => keeps_pureStep _

theorem finalSelection_counted {before limit : Nat} :
    Keeps (Counted before) (finalSelection runtime fromStr generationSeed limit candidates) := by
  refine keeps_bind (keeps_pureStep _) ?_
  intro batches
  split
  · exact requestSelection_counted
  · exact keeps_throw _

theorem finalSelection_ok {limit : Nat}
    (run : finalSelection runtime fromStr generationSeed limit candidates s = .ok ids s') :
    ids.length = targetCount ∧ ids.Nodup ∧ ∀ id ∈ ids, id ∈ candidates.map (·.claimId) := by
  unfold finalSelection at run
  simp only [bind_ok_iff, pureStep_ok_iff] at run
  obtain ⟨batches, _, ⟨planned, rfl⟩, run⟩ := run
  split at run
  · next batch =>
      obtain ⟨counted, distinct, known⟩ := requestSelection_ok run
      refine ⟨counted, distinct, fun id mem => ?_⟩
      obtain ⟨candidate, held, rfl⟩ := List.mem_map.mp (known id mem)
      exact List.mem_map_of_mem (planned_mem planned (by simp) candidate held)
  · cases run

/-! ## Rounds -/

theorem survivors_spec {selectedIds : List String}
    {next : { next : List Candidate // next.length < candidates.length }}
    (left : survivors candidates selectedIds = .ok next) (ordered : InSourceOrder candidates) :
    targetCount ≤ next.1.length ∧ next.1.Sublist candidates ∧ InSourceOrder next.1 := by
  simp only [survivors, peel_ok] at left
  obtain ⟨_, _, left⟩ := left
  split at left
  · cases left
  · next enough =>
      cases left
      have kept : InSourceOrder
          (candidates.filter fun candidate => decide (candidate.claimId ∈ selectedIds)) :=
        ordered.filter _
      have sorted : (candidates.filter fun candidate =>
          decide (candidate.claimId ∈ selectedIds)).Pairwise
          fun a b => a.sourceIndex ≤ b.sourceIndex := kept.imp fun less => Nat.le_of_lt less
      simp only [sorted.insertionSort_eq]
      exact ⟨by omega, List.filter_sublist, kept⟩

theorem reductionRound_ok {batches : List (List Candidate)}
    {next : { next : List Candidate // next.length < candidates.length }}
    (ordered : InSourceOrder candidates)
    (run : reductionRound runtime fromStr generationSeed candidates batches s = .ok next s') :
    targetCount ≤ next.1.length ∧ next.1.Sublist candidates ∧ InSourceOrder next.1 := by
  simp only [reductionRound, bind_ok_iff, pureStep_ok_iff] at run
  obtain ⟨_, _, _, _, _, _, left, _⟩ := run
  exact survivors_spec left ordered

/-- A round goes on from candidates that the rounds before have left. -/
inductive Shortlisted (runtime : ModelRuntime) (fromStr : String → Option (List String))
    (claims : List CitedClaim) (analyzed : AnalyzedDocument) (generationSeed limit : Nat) :
    List Candidate → Prop
  | built {candidates : List Candidate} (built : buildCandidates claims analyzed = .ok candidates) :
      Shortlisted runtime fromStr claims analyzed generationSeed limit candidates
  | reduced {candidates : List Candidate} {batches : List (List Candidate)}
      {next : { next : List Candidate // next.length < candidates.length }} {s s' : Conversation}
      (before : Shortlisted runtime fromStr claims analyzed generationSeed limit candidates)
      (planned : planBatches candidates limit = .ok batches) (several : batches.length ≠ 1)
      (run : reductionRound runtime fromStr generationSeed candidates batches s = .ok next s') :
      Shortlisted runtime fromStr claims analyzed generationSeed limit next.1

theorem Shortlisted.ordered {claims : List CitedClaim} {analyzed : AnalyzedDocument} {limit : Nat}
    (h : Shortlisted runtime fromStr claims analyzed generationSeed limit candidates) :
    InSourceOrder candidates := by
  induction h with
  | built built => exact (buildCandidates_spec built).2
  | reduced before planned several run ih => exact (reductionRound_ok ih run).2.2

/-- A round of a run asks every batch for its share, and leaves fewer candidates. -/
theorem Shortlisted.round {claims : List CitedClaim} {analyzed : AnalyzedDocument} {limit : Nat}
    {batches : List (List Candidate)}
    (h : Shortlisted runtime fromStr claims analyzed generationSeed limit candidates)
    (planned : planBatches candidates limit = .ok batches) (several : batches.length ≠ 1) :
    (∀ quotas, shortlistQuotas batches = .ok quotas →
      quotas.sum = max targetCount batches.length ∧
        List.Forall₂ (fun quota (batch : List Candidate) => quota ≤ batch.length) quotas batches) ∧
    ∀ s next s', reductionRound runtime fromStr generationSeed candidates batches s = .ok next s' →
      next.1.length < candidates.length ∧ targetCount ≤ next.1.length ∧
        next.1.Sublist candidates ∧ InSourceOrder next.1 := by
  constructor
  · intro quotas asked
    rcases (planBatches_batched planned).1 with rfl | batched
    · exact absurd rfl several
    · exact shortlistQuotas_spec batched.nonempty asked
  · intro s next s' run
    exact ⟨next.2, reductionRound_ok h.ordered run⟩

/-! ## The whole selection -/

theorem selectFrom_counted {before limit : Nat} (candidates : List Candidate) :
    Keeps (Counted before) (selectFrom runtime fromStr generationSeed limit candidates) := by
  induction size : candidates.length using Nat.strong_induction_on generalizing candidates with
  | _ n ih =>
      subst size
      rw [selectFrom]
      refine keeps_bind (keeps_pureStep _) ?_
      intro batches
      split
      · exact requestSelection_counted
      · refine keeps_bind (reductionRound_counted _) ?_
        rintro ⟨next, fewer⟩
        simp only
        split
        · exact finalSelection_counted
        · exact ih _ fewer next rfl

theorem selectFrom_ok {limit : Nat} (ordered : InSourceOrder candidates)
    (run : selectFrom runtime fromStr generationSeed limit candidates s = .ok ids s') :
    ids.length = targetCount ∧ ids.Nodup ∧ ∀ id ∈ ids, id ∈ candidates.map (·.claimId) := by
  induction size : candidates.length using Nat.strong_induction_on generalizing candidates s with
  | _ n ih =>
      subst size
      rw [selectFrom] at run
      simp only [bind_ok_iff, pureStep_ok_iff] at run
      obtain ⟨batches, _, ⟨planned, rfl⟩, run⟩ := run
      split at run
      · next batch =>
          obtain ⟨counted, distinct, known⟩ := requestSelection_ok run
          refine ⟨counted, distinct, fun id mem => ?_⟩
          obtain ⟨candidate, held, rfl⟩ := List.mem_map.mp (known id mem)
          exact List.mem_map_of_mem (planned_mem planned (by simp) candidate held)
      · simp only [bind_ok_iff] at run
        obtain ⟨⟨next, fewer⟩, s₁, round, run⟩ := run
        obtain ⟨_, kept, ordered'⟩ := reductionRound_ok ordered round
        have rest : ids.length = targetCount ∧ ids.Nodup ∧
            ∀ id ∈ ids, id ∈ next.map (·.claimId) := by
          split at run
          · exact finalSelection_ok run
          · exact ih _ fewer ordered' run rfl
        exact ⟨rest.1, rest.2.1, fun id mem => (kept.map _).subset (rest.2.2 id mem)⟩

end Requests

section Selection

variable {runtime : ModelRuntime} {fromStr : String → Option (List String)}
  {claims : List CitedClaim} {analyzed : AnalyzedDocument} {generationSeed : Nat}
  {start s' : Conversation} {ids : List String}

theorem checkCancellation_error {stage : PipelineStage} {failure : PipelineFailure}
    {s s' : Conversation} (run : checkCancellation runtime stage s = .error failure s') :
    failure = cancellationFailure stage := by
  unfold checkCancellation at run
  simp only [bind, EStateM.bind, get, getThe, MonadStateOf.get, EStateM.get, set] at run
  split at run
  · next checked =>
      split at run
      · cases run
        rfl
      · cases run
  · next stopped => cases stopped

theorem select_few (few : claims.length ≤ targetCount) :
    (∃ s', select runtime fromStr claims analyzed generationSeed start =
      .ok (claims.map (·.claimId)) s') ∨
    ∃ s', select runtime fromStr claims analyzed generationSeed start =
      .error (cancellationFailure .verify) s' := by
  cases check : checkCancellation runtime .verify start with
  | ok u s₁ =>
      left
      refine ⟨s₁, bind_ok_iff.mpr ⟨u, s₁, check, ?_⟩⟩
      rw [if_pos few]
      rfl
  | error failure s₁ =>
      right
      refine ⟨s₁, bind_error_iff.mpr (.inl ?_)⟩
      rw [check, checkCancellation_error check]

theorem select_many (many : targetCount < claims.length)
    (run : select runtime fromStr claims analyzed generationSeed start = .ok ids s') :
    ids.length = targetCount ∧ ids.Nodup ∧ ∀ id ∈ ids, id ∈ claims.map (·.claimId) := by
  unfold select at run
  rw [if_neg (by omega)] at run
  simp only [bind_ok_iff, pureStep_ok_iff] at run
  obtain ⟨_, _, _, candidates, _, ⟨built, _⟩, _, _, _, _, _, _, run⟩ := run
  obtain ⟨same, ordered⟩ := buildCandidates_spec built
  rw [← same]
  exact selectFrom_ok ordered run

theorem select_bounded :
    (endState (select runtime fromStr claims analyzed generationSeed) start).requests.length ≤
      start.requests.length + maxRequests := by
  have checked : Keeps (fun s => s.requests.length = start.requests.length)
      (checkCancellation runtime .verify) := keeps_checkCancellation fun _ held => held
  have here := checked start rfl
  unfold select
  rw [endState_bind]
  unfold endState at here
  cases check : checkCancellation runtime .verify start with
  | error e s₁ =>
      rw [check] at here
      simp only at here ⊢
      omega
  | ok u s₁ =>
      rw [check] at here
      simp only at here ⊢
      by_cases few : claims.length ≤ targetCount
      · rw [if_pos few]
        show s₁.requests.length ≤ _
        omega
      · rw [if_neg few]
        cases buildCandidates claims analyzed with
        | error e =>
            show s₁.requests.length ≤ _
            omega
        | ok candidates =>
            show (endState (pureStep _ >>= _) s₁).requests.length ≤ _
            rw [endState_bind]
            cases requestCharacterLimit (runtime.contextTokens .verify) outputTokens with
            | error e =>
                show s₁.requests.length ≤ _
                omega
            | ok limit =>
                have counted : Counted start.requests.length { s₁ with requestCount := 0 } :=
                  ⟨by simp [here], by simp [maxRequests]⟩
                have last := @selectFrom_counted runtime fromStr generationSeed _ limit candidates _ counted
                have := last.sent
                have := last.bounded
                show (endState (selectFrom runtime fromStr generationSeed limit candidates)
                  { s₁ with requestCount := 0 }).requests.length ≤ _
                omega

/-- What is recorded of a selection is what the persisted artifact is checked for. -/
theorem recorded_valid {baseWarnings warnings : List PipelineWarning}
    (kept : recorded baseWarnings (select runtime fromStr claims analyzed generationSeed start) =
      .ok (ids, warnings)) :
    persistedContractValid claims ids warnings baseWarnings = true := by
  by_cases few : claims.length ≤ targetCount
  · rw [persistedContractValid, if_pos few]
    rcases select_few few with ⟨s', run⟩ | ⟨s', run⟩
    · rw [run] at kept
      cases kept
      simp
    · rw [run] at kept
      simp [recorded, cancellationObserved, cancellationFailure, stageFailure] at kept
  · rw [persistedContractValid, if_neg few]
    cases run : select runtime fromStr claims analyzed generationSeed start with
    | ok claimIds s' =>
        rw [run] at kept
        cases kept
        obtain ⟨eight, distinct, known⟩ := select_many (by omega) run
        have all : ∀ id ∈ ids, ∃ claim ∈ claims, claim.claimId = id :=
          fun id mem => List.mem_map.mp (known id mem)
        simpa [eight, distinct.dedup] using all
    | error failure s' =>
        rw [run] at kept
        simp only [recorded] at kept
        split at kept
        · cases kept
        · split at kept
          · cases kept
            simp
          · cases kept

end Selection

/-- The ranking of key points: at most 64 requests, eight of the claims or all of them,
rounds that ask for what their batches have and leave fewer candidates, a record that its
validator accepts, and no plan of few batches that cannot be met. -/
theorem key_points_ranked (runtime : ModelRuntime) (fromStr : String → Option (List String))
    (claims : List CitedClaim) (analyzed : AnalyzedDocument) (generationSeed : Nat)
    (start : Conversation) (baseWarnings : List PipelineWarning) :
    (endState (select runtime fromStr claims analyzed generationSeed) start).requests.length ≤
      start.requests.length + maxRequests ∧
    (∀ ids s', select runtime fromStr claims analyzed generationSeed start = .ok ids s' →
      (claims.length ≤ targetCount → ids = claims.map (·.claimId)) ∧
      (targetCount < claims.length →
        ids.length = targetCount ∧ ids.Nodup ∧ ∀ id ∈ ids, id ∈ claims.map (·.claimId))) ∧
    (∀ limit candidates batches,
      Shortlisted runtime fromStr claims analyzed generationSeed limit candidates →
      planBatches candidates limit = .ok batches → batches.length ≠ 1 →
      (∀ quotas, shortlistQuotas batches = .ok quotas →
        quotas.sum = max targetCount batches.length ∧
          List.Forall₂ (fun quota (batch : List Candidate) => quota ≤ batch.length)
            quotas batches) ∧
      ∀ s next s', reductionRound runtime fromStr generationSeed candidates batches s =
          .ok next s' →
        next.1.length < candidates.length ∧ targetCount ≤ next.1.length ∧
          next.1.Sublist candidates ∧ InSourceOrder next.1) ∧
    (∀ ids warnings,
      recorded baseWarnings (select runtime fromStr claims analyzed generationSeed start) =
        .ok (ids, warnings) →
      persistedContractValid claims ids warnings baseWarnings = true) ∧
    ∀ batches : List (List Candidate), batches.length < targetCount →
      targetCount < (batches.map List.length).sum →
      shortlistQuotas batches ≠ .error insufficientBatches ∧
        (2 ≤ batches.length → (∀ batch ∈ batches, batch ≠ []) →
          ∃ quotas, shortlistQuotas batches = .ok quotas) := by
  refine ⟨select_bounded, ?_, ?_, fun ids warnings kept => recorded_valid kept, ?_⟩
  · intro ids s' run
    constructor
    · intro few
      rcases select_few few with ⟨_, same⟩ | ⟨_, stopped⟩
      · rw [same] at run
        cases run
        rfl
      · rw [stopped] at run
        cases run
    · intro many
      exact select_many many run
  · intro limit candidates batches shortlisted planned several
    exact shortlisted.round planned several
  · intro batches few total
    exact shortlistQuotas_satisfiable few total

/-- A runtime that answers each request with its number. -/
def countingRuntime : ModelRuntime where
  runtimeId _ := "runtime"
  modelId _ := "model"
  contextTokens _ := 4096
  preflightRequest _ := .ok ()
  generate count _ := .ok ⟨toString count, "runtime", "model"⟩
  cancellationRequested _ := false

def nineCandidates : List Candidate :=
  (List.range 9).map fun index => ⟨toString index, index, "Rent is due.", "p. 1"⟩

def rankedNames (text : String) : Option (List String) :=
  some (if text = "0" then ["k5", "k1", "k2", "k3", "k4"] else ["k4", "k1", "k2"])

/-- Two requests leave eight of nine candidates, in source order. -/
example : ((reductionRound countingRuntime rankedNames 0 nineCandidates
    [nineCandidates.take 5, nineCandidates.drop 5]).run' ⟨0, 0, 0, []⟩).map
      (·.1.map (·.claimId)) = some ["0", "1", "2", "3", "4", "5", "6", "8"] := by
  decide +kernel

end DocumentSummarizer.Pipeline.KeyPoints
