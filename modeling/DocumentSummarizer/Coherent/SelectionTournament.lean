import DocumentSummarizer.Coherent.SourceSelection
import DocumentSummarizer.Library.OptionSequence

/-! # The tournament of the sources

Every round leaves exactly its target of the candidates it had, in their order and in the
windows of the first round, and the requests of all rounds stay within their number.
-/

namespace DocumentSummarizer.Coherent

open DocumentSummarizer.Library DocumentSummarizer.Pipeline DocumentSummarizer.Pipeline.Gateway

/-! ## Responses -/

theorem sublist_of_positions {α : Type} {items : List α} {found : List (Nat × α)} {start : Nat}
    (growing : found.Pairwise fun a b => a.1 < b.1)
    (stand : ∀ entry ∈ found, start ≤ entry.1 ∧ items[entry.1]? = some entry.2) :
    (found.map (·.2)).Sublist (items.drop start) := by
  induction found generalizing start with
  | nil => exact List.nil_sublist _
  | cons entry later ih =>
      obtain ⟨behind, growing⟩ := List.pairwise_cons.mp growing
      obtain ⟨⟨reached, here⟩, further⟩ := List.forall_mem_cons.mp stand
      have rest := @ih (entry.1 + 1) growing fun other mem =>
        ⟨behind other mem, (further other mem).2⟩
      obtain ⟨inside, same⟩ := List.getElem?_eq_some_iff.mp here
      have split : items.drop entry.1 = entry.2 :: items.drop (entry.1 + 1) := by
        rw [List.drop_eq_getElem_cons inside, same]
      have from_here : (entry.2 :: later.map (·.2)).Sublist (items.drop entry.1) := by
        rw [split]
        exact rest.cons_cons _
      exact from_here.trans (List.drop_sublist_drop_left items reached)

theorem knownPosition_spec {candidates : List SelectionCandidate} {sourceId : String}
    {position : Nat} (known : knownPosition candidates sourceId = some position) :
    (candidates.map (·.requestId))[position]? = some sourceId := by
  obtain ⟨entry, found, rfl⟩ := Option.map_eq_some_iff.mp known
  have named := List.find?_some found
  have mem := List.mem_reverse.mp (List.mem_of_find?_eq_some found)
  have here := List.mem_zipIdx_iff_getElem?.mp mem
  rw [List.getElem?_map, here]
  simpa using named

theorem locateSources_spec {candidates : List SelectionCandidate} {unique sourceIds : List String}
    {located : List (Nat × String)}
    (run : locateSources candidates unique sourceIds = .ok located) :
    located.map (·.2) = sourceIds ∧ sourceIds.Nodup ∧ (∀ id ∈ sourceIds, id ∉ unique) ∧
      ∀ entry ∈ located, (candidates.map (·.requestId))[entry.1]? = some entry.2 := by
  induction sourceIds generalizing unique located with
  | nil =>
      cases run
      simp
  | cons sourceId later ih =>
      simp only [locateSources, peel_ok, okOrElse_eq_ok, refuseIf_eq_ok, return_ok,
        exists_const] at run
      obtain ⟨position, known, fresh, others, rest, rfl⟩ := run
      obtain ⟨same, distinct, unseen, stand⟩ := ih rest
      refine ⟨by simp [same], ?_, ?_, ?_⟩
      · refine List.nodup_cons.mpr ⟨fun repeated => ?_, distinct⟩
        exact unseen sourceId repeated (by simp)
      · refine List.forall_mem_cons.mpr ⟨fresh, fun id mem seen => ?_⟩
        exact unseen id mem (List.mem_cons_of_mem _ seen)
      · exact List.forall_mem_cons.mpr ⟨knownPosition_spec known, stand⟩

/-- The arrays of a response that is well counted hold what was asked for. -/
theorem counted_sources {profile : SummaryProfile} {requestedCount : Nat}
    {story : StorySourceRequirements} {contract : ContractSourceRequirements}
    {raw : RawSourceSelectionResponse} {special : SpecialSources}
    (fits : ¬ RolesExceed profile requestedCount story contract)
    (given : specialSources profile raw = some special)
    (counted : ¬ MiscountedSources profile requestedCount story contract raw.sourceIds special) :
    (raw.sourceIds ++ special.ids).length = requestedCount := by
  simp only [RolesExceed, not_or, not_and, not_not, Nat.not_lt, gt_iff_lt, ne_eq] at fits
  simp only [MiscountedSources, not_or, not_and, not_not, ne_eq] at counted
  obtain ⟨-, -, total, ofStory, ofContract⟩ := fits
  obtain ⟨ordinary, ending, turningPoint, conflict, identityScope, riskExit⟩ := counted
  unfold specialSources at given
  split at given
  · obtain rfl := Option.some.inj given
    have none : contract = .none := by
      by_contra other
      cases ofContract other
    have ending := ending rfl
    have turningPoint := turningPoint rfl
    have conflict := conflict rfl
    subst none
    simp only [SpecialSources.ids, List.length_append, List.length_nil,
      StorySourceRequirements.count, ContractSourceRequirements.count,
      ContractSourceRequirements.none, Bool.toNat_false] at *
    omega
  · obtain rfl := Option.some.inj given
    have none : story = .none := by
      by_contra other
      cases ofStory other
    have identityScope := identityScope rfl
    have riskExit := riskExit rfl
    subst none
    simp only [SpecialSources.ids, List.length_append, List.length_nil,
      StorySourceRequirements.count, ContractSourceRequirements.count,
      StorySourceRequirements.none, Bool.toNat_false] at *
    omega
  · obtain rfl := Option.some.inj given
    have noStory : story = .none := by
      by_contra other
      cases ofStory other
    have noContract : contract = .none := by
      by_contra other
      cases ofContract other
    subst noStory noContract
    simp only [SpecialSources.ids, List.length_append, List.length_nil,
      StorySourceRequirements.count, ContractSourceRequirements.count,
      StorySourceRequirements.none, ContractSourceRequirements.none, Bool.toNat_false] at *
    omega
  · cases given

theorem parseSourceSelectionResponse_spec {fromStr : String → Option RawSourceSelectionResponse}
    {profile : SummaryProfile} {response : String} {candidates : List SelectionCandidate}
    {requestedCount : Nat} {story : StorySourceRequirements}
    {contract : ContractSourceRequirements} {ids : List String}
    (parsed : parseSourceSelectionResponse fromStr profile response candidates requestedCount
      story contract = .ok ids) :
    ids.length = requestedCount ∧ ids.Nodup ∧ ids.Sublist (candidates.map (·.requestId)) := by
  simp only [parseSourceSelectionResponse, peel_ok, okOrElse_eq_ok, refuseIf_eq_ok, return_ok,
    exists_const, not_or] at parsed
  obtain ⟨⟨-, -, -, fits⟩, raw, -, special, given, counted, located, run, rfl⟩ := parsed
  obtain ⟨same, distinct, -, stand⟩ := locateSources_spec run
  have perm := List.perm_insertionSort (fun a b : Nat × String => a.1 ≤ b.1) located
  have ids : List.Perm ((located.insertionSort fun a b => a.1 ≤ b.1).map (·.2))
      (raw.sourceIds ++ special.ids) := same ▸ perm.map _
  have once := ids.nodup_iff.mpr distinct
  have stand' : ∀ entry ∈ located.insertionSort fun a b => a.1 ≤ b.1,
      (candidates.map (·.requestId))[entry.1]? = some entry.2 :=
    fun entry mem => stand entry (perm.mem_iff.mp mem)
  refine ⟨?_, once, ?_⟩
  · rw [ids.length_eq]
    exact counted_sources fits given counted
  · refine @sublist_of_positions _ _ _ 0 ?_ fun entry mem => ⟨Nat.zero_le _, stand' entry mem⟩
    have sorted := List.pairwise_insertionSort (fun a b : Nat × String => a.1 ≤ b.1) located
    refine (sorted.and (List.pairwise_map.mp once)).imp_of_mem ?_
    rintro a b left right ⟨le, different⟩
    refine Nat.lt_of_le_of_ne le fun equal => different ?_
    have found := stand' b right
    rw [← equal, stand' a left] at found
    exact Option.some.inj found

/-! ## The roles of a window -/

theorem role_le {p : Prop} [Decidable p] {room : Nat} (needs : p → 0 < room) :
    (decide p).toNat ≤ room := by
  by_cases asked : p
  · rw [decide_eq_true asked]
    exact needs asked
  · rw [decide_eq_false asked]
    exact Nat.zero_le _

theorem role_and_le {first : Bool} {p : Prop} [Decidable p] {room : Nat} (needs : p → 0 < room) :
    (first && decide p).toNat ≤ room := by
  cases first with
  | false => exact Nat.zero_le _
  | true => exact role_le needs

theorem storySourceRequirements_count (profile : SummaryProfile)
    (windowIndex windowCount requestedCount : Nat) :
    (storySourceRequirements profile windowIndex windowCount requestedCount).count ≤
      requestedCount := by
  unfold storySourceRequirements
  split
  · exact Nat.zero_le _
  · generalize ended : decide (windowIndex + 1 = windowCount ∧ requestedCount > 0) = ending
    have ending_le : ending.toNat ≤ requestedCount := ended ▸ role_le And.right
    show (decide (windowIndex = 0 ∧ requestedCount - ending.toNat > 0)).toNat +
      (ending && decide (requestedCount - ending.toNat -
        (decide (windowIndex = 0 ∧ requestedCount - ending.toNat > 0)).toNat > 0)).toNat +
      ending.toNat ≤ requestedCount
    generalize opposed : decide (windowIndex = 0 ∧ requestedCount - ending.toNat > 0) = conflict
    have conflict_le : conflict.toNat ≤ requestedCount - ending.toNat := opposed ▸ role_le And.right
    have turning_le : (ending && decide
        (requestedCount - ending.toNat - conflict.toNat > 0)).toNat ≤
        requestedCount - ending.toNat - conflict.toNat := role_and_le id
    omega

theorem contractSourceRequirements_count (profile : SummaryProfile)
    (windowIndex windowCount requestedCount : Nat) :
    (contractSourceRequirements profile windowIndex windowCount requestedCount).count ≤
      requestedCount := by
  unfold contractSourceRequirements
  split
  · exact Nat.zero_le _
  · generalize named : decide (windowIndex = 0 ∧ requestedCount > 0) = identity
    have identity_le : identity.toNat ≤ requestedCount := named ▸ role_le And.right
    have risk_le : (decide (windowIndex + 1 = windowCount ∧
        requestedCount - identity.toNat > 0)).toNat ≤ requestedCount - identity.toNat :=
      role_le And.right
    show identity.toNat + (decide (windowIndex + 1 = windowCount ∧
      requestedCount - identity.toNat > 0)).toNat ≤ requestedCount
    omega

/-! ## The plan of a round -/

/-- Windows that are not empty, no larger than a request, and together the candidates. -/
structure Windowed (candidates : List SelectionCandidate)
    (batches : List (List SelectionCandidate)) : Prop where
  whole : batches.flatten = candidates
  nonempty : ∀ batch ∈ batches, batch ≠ []
  small : ∀ batch ∈ batches, batch.length ≤ maxSourceSelectionCandidatesPerRequest

section Plan

variable {profile : SummaryProfile} {limit : Nat} {candidates current : List SelectionCandidate}
  {batches : List (List SelectionCandidate)}

theorem windowFits_true {proposed : List SelectionCandidate}
    (fits : windowFits profile proposed limit = .ok true) :
    proposed.length ≤ maxSourceSelectionCandidatesPerRequest := by
  unfold windowFits at fits
  split at fits
  · next small => exact small
  · cases fits

theorem fillWindows_windowed
    (small : current.length ≤ maxSourceSelectionCandidatesPerRequest)
    (filled : fillWindows profile limit current candidates = .ok (some batches)) :
    Windowed (current ++ candidates) batches := by
  induction candidates generalizing current batches with
  | nil =>
      cases filled
      cases current with
      | nil => exact ⟨rfl, by simp, by simp⟩
      | cons candidate others => exact ⟨by simp, by simp, by simpa using small⟩
  | cons candidate later ih =>
      simp only [fillWindows, peel_ok] at filled
      obtain ⟨fits, asked, filled⟩ := filled
      cases fits with
      | true =>
          simp only [if_true] at filled
          have rest := ih (windowFits_true asked) filled
          rwa [List.append_assoc] at rest
      | false =>
          simp only [Bool.false_eq_true, if_false] at filled
          split at filled
          · cases return_ok.mp filled
          · next nonempty =>
              simp only [peel_ok] at filled
              obtain ⟨alone, -, filled⟩ := filled
              split at filled
              · cases return_ok.mp filled
              · simp only [peel_ok, return_ok] at filled
                obtain ⟨behind, further, joined⟩ := filled
                obtain ⟨windows, rfl, rfl⟩ := Option.map_eq_some_iff.mp joined
                have rest := ih (by simp [maxSourceSelectionCandidatesPerRequest]) further
                refine ⟨?_, ?_, ?_⟩
                · rw [List.flatten_cons, rest.whole, List.singleton_append]
                · exact List.forall_mem_cons.mpr ⟨by simpa using nonempty, rest.nonempty⟩
                · exact List.forall_mem_cons.mpr ⟨small, rest.small⟩

theorem planSourceSelectionBatches_windowed
    (planned : planSourceSelectionBatches profile candidates limit = .ok (some batches)) :
    Windowed candidates batches := by
  simp only [planSourceSelectionBatches, peel_ok] at planned
  obtain ⟨found, filled, planned⟩ := planned
  cases found with
  | none => cases return_ok.mp planned
  | some windows =>
      simp only at planned
      split at planned
      · cases return_ok.mp planned
      · obtain rfl := Option.some.inj (return_ok.mp planned)
        have windowed := fillWindows_windowed (Nat.zero_le _) filled
        simpa using windowed

/-- A quota for every window: at least one of its candidates, and no more than it has. -/
theorem sourceSelectionQuotas_spec {targetCount : Nat} {quotas : List Nat}
    (asked : sourceSelectionQuotas batches targetCount = .ok quotas) :
    quotas.sum = targetCount ∧
      List.Forall₂ (fun quota (batch : List SelectionCandidate) =>
        1 ≤ quota ∧ quota ≤ batch.length) quotas batches := by
  simp only [sourceSelectionQuotas, peel_ok, refuseIf_eq_ok, okOrElse_eq_ok, return_ok,
    exists_const, not_or, not_exists, not_and, Nat.not_lt] at asked
  obtain ⟨⟨-, nonempty, enough, -⟩, shares, given, rfl⟩ := asked
  obtain ⟨apportioned, total⟩ := apportion_spec given
  have initial : quotaTotal (batches.map fun batch => ⟨batch.length, 1⟩) = batches.length := by
    simp [quotaTotal, Function.comp_def]
  have within := apportioned.within (by
    intro share mem
    obtain ⟨batch, held, rfl⟩ := List.mem_map.mp mem
    exact List.length_pos_iff.mpr (nonempty batch held))
  constructor
  · rw [initial] at total
    show quotaTotal shares = targetCount
    omega
  · have sizes := apportioned.sizes
    have grown := apportioned.grown
    clear given total initial apportioned enough nonempty
    induction batches generalizing shares with
    | nil =>
        cases grown
        exact .nil
    | cons batch later ih =>
        cases grown with
        | @cons _ share _ others le rest =>
            simp only [List.map_cons, List.cons.injEq] at sizes
            obtain ⟨first, further⟩ := List.forall_mem_cons.mp within
            exact .cons ⟨le, sizes.1 ▸ first⟩ (ih others further sizes.2 rest)

end Plan

/-! ## Requests -/

/-- However the computation ends, it has sent so many requests at most. -/
def Sends {α : Type} (count : Nat) (m : EStateM Halt Conversation α) : Prop :=
  ∀ s, (endState m s).requests.length ≤ s.requests.length + count

section Sends

variable {α β : Type} {count : Nat} {runtime : ModelRuntime}

theorem sends_pure (a : α) : Sends count (pure a) :=
  fun _ => Nat.le_add_right _ _

theorem Sends.bind {first : EStateM Halt Conversation α} {rest : α → EStateM Halt Conversation β}
    {before : Nat} (start : Sends before first) (further : ∀ a, Sends count (rest a)) :
    Sends (before + count) (first >>= rest) := by
  intro s
  have here := start s
  rw [endState_bind]
  unfold endState at here
  cases run : first s with
  | ok a s₁ =>
      rw [run] at here
      have there := further a s₁
      simp only at here ⊢
      omega
  | error e s₁ =>
      rw [run] at here
      simp only at here ⊢
      omega

theorem Sends.mono {m : EStateM Halt Conversation α} {more : Nat} (sends : Sends count m)
    (le : count ≤ more) : Sends more m :=
  fun s => (sends s).trans (Nat.add_le_add_left le _)

theorem Sends.behind {first : EStateM Halt Conversation α}
    {rest : α → EStateM Halt Conversation β} (start : Sends 0 first)
    (further : ∀ a, Sends count (rest a)) : Sends count (first >>= rest) := by
  have both := start.bind further
  rwa [Nat.zero_add] at both

theorem endState_halting (m : Converse α) (s : Conversation) :
    endState (halting m) s = endState m s := by
  unfold endState halting
  cases m s with
  | ok a s' => rfl
  | error e s' => rfl

theorem sends_pureStep (m : Except Halt α) : Sends 0 (pureStep m) := by
  intro s
  cases m with
  | ok a => exact Nat.le_refl _
  | error e => exact Nat.le_refl _

theorem sends_stepping (m : Except PipelineFailure α) : Sends 0 (stepping m) := by
  intro s
  rw [stepping, endState_halting]
  cases m with
  | ok a => exact Nat.le_refl _
  | error e => exact Nat.le_refl _

theorem sends_get : Sends 0 (get : EStateM Halt Conversation Conversation) :=
  fun _ => Nat.le_refl _

theorem sends_checkCancellation : Sends 0 (halting (checkCancellation runtime .synthesize)) := by
  intro s
  rw [endState_halting]
  exact @keeps_checkCancellation runtime .synthesize
    (fun t => t.requests.length ≤ s.requests.length) (fun _ held => held) s (Nat.le_refl _)

theorem sends_reserve : Sends 0 (halting (reserveModelRequestOrdinal .synthesize)) := by
  intro s
  rw [endState_halting]
  exact @keeps_reserveModelRequestOrdinal .synthesize
    (fun t => t.requests.length ≤ s.requests.length) (fun _ held => held) s (Nat.le_refl _)

theorem sends_exchange (request : ModelRequest) : Sends 1 (halting (exchange runtime request)) := by
  intro s
  rw [endState_halting]
  show (s.requests ++ [request]).length ≤ _
  rw [List.length_append, List.length_singleton]

end Sends

section Requests

variable {runtime : ModelRuntime} {fromStr : String → Option RawSourceSelectionResponse}
  {summary : SummaryRequests} {profile : SummaryProfile} {generationSeed : Nat}

theorem sends_requestSourceSelection (candidates : List SelectionCandidate) (requestedCount : Nat)
    (story : StorySourceRequirements) (contract : ContractSourceRequirements) :
    Sends 1 (requestSourceSelection runtime fromStr profile generationSeed candidates
      requestedCount story contract) := by
  refine sends_checkCancellation.behind fun _ => ?_
  refine (sends_stepping _).behind ?_
  rintro ⟨userPrompt, schema⟩
  refine sends_reserve.behind fun ordinal => ?_
  refine (sends_pureStep _).behind fun exceeds => ?_
  cases exceeds with
  | true => exact sends_pure none
  | false =>
      refine @Sends.bind _ _ 0 _ _ _ (sends_exchange _) fun _ => ?_
      refine sends_checkCancellation.behind fun _ => ?_
      refine (sends_stepping _).behind fun _ => ?_
      refine (sends_stepping _).behind fun _ => ?_
      exact (sends_stepping _).behind fun _ => sends_pure _

theorem sends_requestWindows {windowCount start : Nat}
    (windows : List (List SelectionCandidate × Nat)) :
    Sends windows.length
      (requestWindows runtime fromStr profile generationSeed windowCount start windows) := by
  induction windows generalizing start with
  | nil => exact sends_pure _
  | cons window later ih =>
      obtain ⟨batch, requestedCount⟩ := window
      rw [List.length_cons, Nat.add_comm]
      refine (sends_requestSourceSelection _ _ _ _).bind ?_
      rintro (_ | sourceIds)
      · exact sends_pure _
      · refine (sends_stepping _).behind fun placed => ?_
        have rest := @ih (start + 1)
        rw [← Nat.add_zero later.length] at rest ⊢
        refine rest.bind ?_
        rintro (_ | others)
        · exact sends_pure _
        · exact sends_pure _

theorem sends_selectSources {selectionInputLimit synthesisInputLimit requestCount : Nat}
    (current : SelectionCatalog) (within : requestCount ≤ maxSourceSelectionRequests) :
    Sends (maxSourceSelectionRequests - requestCount)
      (selectSources runtime fromStr summary profile generationSeed selectionInputLimit
        synthesisInputLimit requestCount current) := by
  induction size : current.candidates.length using Nat.strong_induction_on
    generalizing current requestCount with
  | _ n ih =>
      subst size
      rw [selectSources]
      refine sends_get.behind fun s => ?_
      refine (sends_pureStep _).behind fun fits => ?_
      cases fits with
      | true => exact sends_pure _
      | false =>
          simp only [Bool.false_eq_true, if_false]
          split
          · exact sends_pure _
          · refine (sends_stepping _).behind fun planned => ?_
            cases planned with
            | none => exact sends_pure _
            | some batches =>
                simp only
                split
                · exact sends_pure _
                · next targetCount target =>
                    refine (sends_stepping _).behind fun quotas => ?_
                    split
                    · exact sends_pure _
                    · next room =>
                        have parts : maxSourceSelectionRequests - requestCount =
                            batches.length + (maxSourceSelectionRequests -
                              (requestCount + batches.length)) := by
                          omega
                        rw [parts]
                        have asked := @sends_requestWindows runtime fromStr profile generationSeed
                          batches.length 0 (batches.zip quotas)
                        have few : (batches.zip quotas).length ≤ batches.length := by
                          rw [List.length_zip]
                          exact Nat.min_le_left _ _
                        refine (asked.mono few).bind ?_
                        rintro (_ | placed)
                        · exact sends_pure _
                        · refine (sends_stepping _).behind ?_
                          rintro ⟨next, fewer⟩
                          exact ih _ fewer ⟨next, 0⟩ (by omega) rfl

theorem sends_selectSourceCatalog (synthesisInputLimit : Nat) (catalog : SelectionCatalog) :
    Sends maxSourceSelectionRequests (selectSourceCatalog runtime fromStr summary profile
      generationSeed synthesisInputLimit catalog) := by
  unfold selectSourceCatalog
  split
  · exact sends_pure _
  · split
    · exact sends_pure _
    · exact sends_selectSources catalog (Nat.zero_le _)

end Requests

/-! ## The survivors of a round -/

section Survivors

variable {candidates : List SelectionCandidate} {targetCount : Nat}
  {placed : List (String × Nat)}

theorem selectedWindow_mem {sourceId : String} {window : Nat}
    (found : selectedWindow placed sourceId = some window) : (sourceId, window) ∈ placed := by
  obtain ⟨entry, here, rfl⟩ := Option.map_eq_some_iff.mp found
  have named := List.find?_some here
  have mem := List.mem_reverse.mp (List.mem_of_find?_eq_some here)
  rwa [← of_decide_eq_true named]

theorem selectedWindow_isSome {sourceId : String} :
    (selectedWindow placed sourceId).isSome = true ↔ sourceId ∈ placed.map (·.1) := by
  rw [selectedWindow, Option.isSome_map, List.find?_isSome]
  constructor
  · rintro ⟨entry, mem, named⟩
    exact List.mem_map.mpr ⟨entry, List.mem_reverse.mp mem, of_decide_eq_true named⟩
  · intro mem
    obtain ⟨entry, held, named⟩ := List.mem_map.mp mem
    exact ⟨entry, List.mem_reverse.mpr held, decide_eq_true named⟩

/-- Every selected id is the id of a candidate, in the window that was recorded for it. -/
def PlacedIn (batches : List (List SelectionCandidate)) (start : Nat)
    (placed : List (String × Nat)) : Prop :=
  ∀ entry ∈ placed, ∃ (index : Nat) (batch : List SelectionCandidate)
    (candidate : SelectionCandidate), batches[index]? = some batch ∧ candidate ∈ batch ∧
      candidate.requestId = entry.1 ∧ entry.2 = candidate.selectionWindow.getD (start + index)

theorem survivingSources_spec
    {next : { next : List SelectionCandidate // next.length < candidates.length }}
    (left : survivingSources candidates targetCount placed = .ok next) :
    (placed.map (·.1)).Nodup ∧ placed.length = targetCount ∧ next.1.length = targetCount ∧
      next.1 = candidates.filterMap fun candidate =>
        (selectedWindow placed candidate.requestId).map fun window =>
          candidate.inWindow (some window) := by
  simp only [survivingSources, peel_ok, refuseIf_eq_ok, exists_const, not_or, not_not, ne_eq]
    at left
  obtain ⟨⟨once, counted⟩, left⟩ := left
  split at left
  · cases left
  · next plan =>
      obtain rfl := return_ok.mp left
      obtain ⟨exactly, -⟩ := not_or.mp plan
      rw [once, List.length_map] at counted
      refine ⟨?_, counted, not_not.mp exactly, rfl⟩
      rw [← List.dedup_eq_self]
      exact (List.dedup_sublist _).eq_of_length once

theorem selected_unique {batches : List (List SelectionCandidate)}
    {next : { next : List SelectionCandidate // next.length < candidates.length }}
    (whole : batches.flatten = candidates) (places : PlacedIn batches 0 placed)
    (left : survivingSources candidates targetCount placed = .ok next) {a b : SelectionCandidate}
    (ofA : a ∈ candidates) (ofB : b ∈ candidates) (same : a.requestId = b.requestId)
    (selected : a.requestId ∈ placed.map (·.1)) : a = b := by
  obtain ⟨once, counted, exactly, kept⟩ := survivingSources_spec left
  have chosen (candidate : SelectionCandidate) :
      (selectedWindow placed candidate.requestId).isSome = true ↔
        decide (candidate.requestId ∈ placed.map (·.1)) = true := by
    rw [selectedWindow_isSome, decide_eq_true_iff]
  have within : placed.map (·.1) ⊆
      (candidates.filter fun c => decide (c.requestId ∈ placed.map (·.1))).map (·.requestId) := by
    intro id mem
    obtain ⟨entry, held, rfl⟩ := List.mem_map.mp mem
    obtain ⟨index, batch, candidate, here, inside, named, -⟩ := places entry held
    have known : candidate ∈ candidates := by
      rw [← whole]
      exact List.mem_flatten.mpr ⟨batch, List.mem_of_getElem? here, inside⟩
    refine List.mem_map.mpr ⟨candidate, List.mem_filter.mpr ⟨known, ?_⟩, named⟩
    rw [named]
    exact decide_eq_true mem
  have few : ((candidates.filter fun c =>
      decide (c.requestId ∈ placed.map (·.1))).map (·.requestId)).length ≤
        (placed.map (·.1)).length := by
    have counts : next.1.length = (candidates.filter fun c =>
        decide (c.requestId ∈ placed.map (·.1))).length := by
      rw [kept, List.length_filterMap_eq_countP, List.countP_eq_length_filter]
      refine congrArg List.length (List.filter_congr fun c _ => ?_)
      rw [Option.isSome_map]
      exact Bool.eq_iff_iff.mpr (chosen c)
    rw [List.length_map, List.length_map, ← counts, exactly, counted]
  have perm := (List.subperm_of_subset once within).perm_of_length_le few
  refine List.inj_on_of_nodup_map (perm.nodup_iff.mp once) ?_ ?_ same
  · exact List.mem_filter.mpr ⟨ofA, decide_eq_true selected⟩
  · exact List.mem_filter.mpr ⟨ofB, decide_eq_true (same ▸ selected)⟩

theorem filterMap_sublist_map {α β : Type} {items : List α} {f : α → Option β} {g : α → β}
    (same : ∀ a ∈ items, ∀ b ∈ f a, b = g a) : (items.filterMap f).Sublist (items.map g) := by
  induction items with
  | nil => exact .slnil
  | cons a later ih =>
      have rest := ih fun b mem => same b (List.mem_cons_of_mem _ mem)
      rw [List.map_cons]
      cases found : f a with
      | none =>
          rw [List.filterMap_cons_none found]
          exact rest.cons _
      | some b =>
          rw [List.filterMap_cons_some found, same a (by simp) b found]
          exact rest.cons_cons _

end Survivors

/-! ## Rounds -/

@[simp] theorem stepping_ok_iff {α : Type} {m : Except PipelineFailure α} {a : α}
    {s s' : Conversation} : stepping m s = .ok a s' ↔ m = .ok a ∧ s = s' := by
  rw [← pureStep_ok_iff]
  unfold stepping halting
  cases (pureStep m : Converse α) s with
  | ok b t => simp
  | error e t => simp

section Rounds

variable {runtime : ModelRuntime} {fromStr : String → Option RawSourceSelectionResponse}
  {summary : SummaryRequests} {profile : SummaryProfile} {generationSeed : Nat}

theorem placeSources_placed {batch : List SelectionCandidate} {windowIndex : Nat}
    {sourceIds : List String} {placed : List (String × Nat)}
    (run : placeSources batch windowIndex sourceIds = .ok placed) :
    PlacedIn [batch] windowIndex placed := by
  intro entry mem
  obtain ⟨sourceId, -, place⟩ := forall₂_right_exists (mapM_ok_iff.mp run) mem
  simp only [peel_ok, okOrElse_eq_ok, return_ok] at place
  obtain ⟨candidate, found, rfl⟩ := place
  have named := List.find?_some found
  exact ⟨0, batch, candidate, rfl, List.mem_of_find?_eq_some found, of_decide_eq_true named, rfl⟩

theorem requestWindows_placed {windowCount start : Nat}
    {windows : List (List SelectionCandidate × Nat)} {s s' : Conversation}
    {placed : List (String × Nat)}
    (run : requestWindows runtime fromStr profile generationSeed windowCount start windows s =
      .ok (some placed) s') : PlacedIn (windows.map (·.1)) start placed := by
  induction windows generalizing start s s' placed with
  | nil =>
      obtain ⟨same, -⟩ := pure_ok_iff.mp run
      obtain rfl := Option.some.inj same
      intro entry mem
      cases mem
  | cons window later ih =>
      obtain ⟨batch, requestedCount⟩ := window
      obtain ⟨answered, s₁, -, run⟩ := bind_ok_iff.mp run
      cases answered with
      | none =>
          obtain ⟨other, -⟩ := pure_ok_iff.mp run
          cases other
      | some sourceIds =>
          obtain ⟨here, s₂, stepped, run⟩ := bind_ok_iff.mp run
          obtain ⟨places, rfl⟩ := stepping_ok_iff.mp stepped
          obtain ⟨behind, s₃, rest, run⟩ := bind_ok_iff.mp run
          cases behind with
          | none =>
              obtain ⟨other, -⟩ := pure_ok_iff.mp run
              cases other
          | some others =>
              obtain ⟨same, -⟩ := pure_ok_iff.mp run
              obtain rfl := Option.some.inj same
              intro entry mem
              rcases List.mem_append.mp mem with mem | mem
              · obtain ⟨index, found, candidate, at_, inside, named, window⟩ :=
                  placeSources_placed places entry mem
                cases index with
                | zero => exact ⟨0, found, candidate, at_, inside, named, window⟩
                | succ index => cases at_
              · have places := ih rest entry mem
                obtain ⟨index, found, candidate, at_, inside, named, window⟩ := places
                refine ⟨index + 1, found, candidate, at_, inside, named, ?_⟩
                rw [window, Nat.add_right_comm, Nat.add_assoc]

/-- A round of the tournament: the windows that are planned, the number of candidates that
is to be left, and the candidates that the answers of the model leave. -/
structure Round (runtime : ModelRuntime) (fromStr : String → Option RawSourceSelectionResponse)
    (profile : SummaryProfile) (generationSeed limit : Nat) (current : List SelectionCandidate)
    (batches : List (List SelectionCandidate)) (targetCount : Nat)
    (next : List SelectionCandidate) : Prop where
  planned : planSourceSelectionBatches profile current limit = .ok (some batches)
  target : sourceSelectionTarget profile current.length batches.length = some targetCount
  left : ∃ quotas placed s s', sourceSelectionQuotas batches targetCount = .ok quotas ∧
    requestWindows runtime fromStr profile generationSeed batches.length 0 (batches.zip quotas) s =
      .ok (some placed) s' ∧
    ∃ fewer, survivingSources current targetCount placed = .ok ⟨next, fewer⟩

/-- What so many rounds leave of the candidates. -/
inductive Reached (runtime : ModelRuntime)
    (fromStr : String → Option RawSourceSelectionResponse) (profile : SummaryProfile)
    (generationSeed limit : Nat) (candidates : List SelectionCandidate) :
    Nat → List SelectionCandidate → Prop
  | start : Reached runtime fromStr profile generationSeed limit candidates 0 candidates
  | round {rounds targetCount : Nat} {current next : List SelectionCandidate}
      {batches : List (List SelectionCandidate)}
      (before : Reached runtime fromStr profile generationSeed limit candidates rounds current)
      (round : Round runtime fromStr profile generationSeed limit current batches targetCount next) :
      Reached runtime fromStr profile generationSeed limit candidates (rounds + 1) next

namespace Round

variable {limit targetCount : Nat} {current next : List SelectionCandidate}
  {batches : List (List SelectionCandidate)}

section

variable (h : Round runtime fromStr profile generationSeed limit current batches targetCount next)

include h

/-- Each candidate that is left stood in a window of the round, which it has from now on
unless it had one before. -/
theorem survivors
    :
    next.length = targetCount ∧ next.length < current.length ∧
      ∃ kept : SelectionCandidate → Option SelectionCandidate, next = current.filterMap kept ∧
        ∀ candidate ∈ current, ∀ survivor ∈ kept candidate, ∃ index batch,
          batches[index]? = some batch ∧ candidate ∈ batch ∧
            survivor = candidate.inWindow (some (candidate.selectionWindow.getD index)) := by
  obtain ⟨quotas, placed, s, s', asked, run, fewer, left⟩ := h.left
  have windowed := planSourceSelectionBatches_windowed h.planned
  have quotas_length := (sourceSelectionQuotas_spec asked).2.length_eq
  have places := requestWindows_placed run
  rw [List.map_fst_zip quotas_length.ge] at places
  obtain ⟨-, -, exactly, kept⟩ := survivingSources_spec left
  refine ⟨exactly, fewer, _, kept, fun candidate known survivor survives => ?_⟩
  obtain ⟨window, found, rfl⟩ := Option.map_eq_some_iff.mp survives
  have mem := selectedWindow_mem found
  obtain ⟨index, batch, other, here, inside, named, recorded⟩ := places _ mem
  have otherKnown : other ∈ current := by
    rw [← windowed.whole]
    exact List.mem_flatten.mpr ⟨batch, List.mem_of_getElem? here, inside⟩
  have selected : candidate.requestId ∈ placed.map (·.1) := List.mem_map.mpr ⟨_, mem, rfl⟩
  obtain rfl := selected_unique windowed.whole places left known otherKnown named.symm selected
  refine ⟨index, batch, here, inside, ?_⟩
  rw [Nat.zero_add] at recorded
  rw [← recorded]

theorem in_order
    :
    (next.map (·.inWindow none)).Sublist (current.map (·.inWindow none)) := by
  obtain ⟨-, -, kept, rfl, windows⟩ := h.survivors
  rw [List.map_filterMap]
  apply filterMap_sublist_map
  intro candidate known survivor survives
  obtain ⟨before, held, rfl⟩ := Option.map_eq_some_iff.mp survives
  obtain ⟨index, batch, -, -, rfl⟩ := windows candidate known before held
  rfl

theorem windows
    :
    ∀ survivor ∈ next, ∃ (index : Nat) (batch : List SelectionCandidate)
      (candidate : SelectionCandidate), batches[index]? = some batch ∧ candidate ∈ batch ∧
      survivor = candidate.inWindow (some (candidate.selectionWindow.getD index)) := by
  obtain ⟨-, -, kept, rfl, windows⟩ := h.survivors
  intro survivor mem
  obtain ⟨candidate, known, held⟩ := List.mem_filterMap.mp mem
  obtain ⟨index, batch, here, inside, same⟩ := windows candidate known survivor held
  exact ⟨index, batch, candidate, here, inside, same⟩

theorem unchanged
    (placed : ∀ candidate ∈ current, candidate.selectionWindow.isSome = true) :
    next.Sublist current := by
  obtain ⟨-, -, kept, rfl, windows⟩ := h.survivors
  rw [← List.map_id current]
  nth_rewrite 1 [List.map_id]
  apply filterMap_sublist_map
  intro candidate known survivor survives
  obtain ⟨index, batch, -, -, rfl⟩ := windows candidate known survivor survives
  obtain ⟨window, has⟩ := Option.isSome_iff_exists.mp (placed candidate known)
  rw [has, Option.getD_some, ← has]
  rfl

end

end Round

theorem Reached.placed {limit rounds : Nat} {candidates current : List SelectionCandidate}
    (h : Reached runtime fromStr profile generationSeed limit candidates rounds current)
    (later : 0 < rounds) : ∀ candidate ∈ current, candidate.selectionWindow.isSome = true := by
  cases h with
  | start => cases later
  | round before round =>
      intro survivor mem
      obtain ⟨index, batch, candidate, -, -, rfl⟩ := round.windows survivor mem
      rfl

/-- What the loop answers is what some rounds leave. -/
theorem selectSources_reached {selectionInputLimit synthesisInputLimit requestCount rounds : Nat}
    {candidates : List SelectionCandidate} {current chosen : SelectionCatalog}
    {s s' : Conversation}
    (before : Reached runtime fromStr profile generationSeed selectionInputLimit candidates rounds
      current.candidates)
    (run : selectSources runtime fromStr summary profile generationSeed selectionInputLimit
      synthesisInputLimit requestCount current s = .ok (some chosen) s') :
    ∃ rounds', Reached runtime fromStr profile generationSeed selectionInputLimit candidates rounds'
      chosen.candidates := by
  induction size : current.candidates.length using Nat.strong_induction_on
    generalizing current requestCount rounds s with
  | _ n ih =>
      subst size
      rw [selectSources] at run
      obtain ⟨_, _, -, run⟩ := bind_ok_iff.mp run
      obtain ⟨fits, _, -, run⟩ := bind_ok_iff.mp run
      cases fits with
      | true =>
          obtain ⟨same, -⟩ := pure_ok_iff.mp run
          obtain rfl := Option.some.inj same
          exact ⟨rounds, before⟩
      | false =>
          simp only [Bool.false_eq_true, if_false] at run
          split at run
          · cases (pure_ok_iff.mp run).1
          · obtain ⟨planned, _, plan, run⟩ := bind_ok_iff.mp run
            cases planned with
            | none => cases (pure_ok_iff.mp run).1
            | some batches =>
                cases target : sourceSelectionTarget profile current.candidates.length
                  batches.length with
                | none =>
                    simp only [target] at run
                    cases (pure_ok_iff.mp run).1
                | some targetCount =>
                    simp only [target] at run
                    obtain ⟨quotas, _, quota, run⟩ := bind_ok_iff.mp run
                    split at run
                    · cases (pure_ok_iff.mp run).1
                    · obtain ⟨placed, _, asked, run⟩ := bind_ok_iff.mp run
                      cases placed with
                      | none => cases (pure_ok_iff.mp run).1
                      | some placed =>
                          obtain ⟨⟨next, fewer⟩, _, left, run⟩ := bind_ok_iff.mp run
                          have round : Round runtime fromStr profile generationSeed
                              selectionInputLimit current.candidates batches targetCount next :=
                            ⟨(stepping_ok_iff.mp plan).1, target, quotas, placed, _, _,
                              (stepping_ok_iff.mp quota).1, asked, fewer,
                              (stepping_ok_iff.mp left).1⟩
                          exact ih _ fewer (before.round round) run rfl

end Rounds

/-- The tournament of the sources, whatever the model answers: its requests are bounded, a
round asks every window for a part of its candidates and leaves its target of them in order,
and the windows are those of the first round. -/
theorem source_selection_tournament (runtime : ModelRuntime)
    (fromStr : String → Option RawSourceSelectionResponse) (summary : SummaryRequests)
    (profile : SummaryProfile) (generationSeed : Nat) :
    (∀ synthesisInputLimit catalog s,
      (endState (selectSourceCatalog runtime fromStr summary profile generationSeed
        synthesisInputLimit catalog) s).requests.length ≤
          s.requests.length + maxSourceSelectionRequests) ∧
    (∀ synthesisInputLimit catalog chosen s s',
      selectSourceCatalog runtime fromStr summary profile generationSeed synthesisInputLimit
        catalog s = .ok (some chosen) s' →
      ∃ limit rounds, Reached runtime fromStr profile generationSeed limit catalog.candidates
        rounds chosen.candidates) ∧
    (∀ limit candidates rounds current batches targetCount next,
      Reached runtime fromStr profile generationSeed limit candidates rounds current →
      Round runtime fromStr profile generationSeed limit current batches targetCount next →
      Windowed current batches ∧
      (∀ quotas, sourceSelectionQuotas batches targetCount = .ok quotas →
        quotas.sum = targetCount ∧
          List.Forall₂ (fun quota (batch : List SelectionCandidate) =>
            1 ≤ quota ∧ quota ≤ batch.length) quotas batches) ∧
      next.length = targetCount ∧ next.length < current.length ∧
      (next.map (·.inWindow none)).Sublist (current.map (·.inWindow none)) ∧
      (∀ survivor ∈ next, ∃ (index : Nat) (batch : List SelectionCandidate)
        (candidate : SelectionCandidate), batches[index]? = some batch ∧ candidate ∈ batch ∧
        survivor = candidate.inWindow (some (candidate.selectionWindow.getD index))) ∧
      (0 < rounds → next.Sublist current)) ∧
    (∀ windowIndex windowCount requestedCount,
      (storySourceRequirements profile windowIndex windowCount requestedCount).count ≤
          requestedCount ∧
        (contractSourceRequirements profile windowIndex windowCount requestedCount).count ≤
          requestedCount) ∧
    (∀ response candidates requestedCount story contract ids,
      parseSourceSelectionResponse fromStr profile response candidates requestedCount story
        contract = .ok ids →
      ids.length = requestedCount ∧ ids.Nodup ∧
        ids.Sublist (candidates.map (·.requestId))) := by
  refine ⟨fun limit catalog s => sends_selectSourceCatalog limit catalog s, ?_, ?_,
    fun windowIndex windowCount requestedCount =>
      ⟨storySourceRequirements_count profile windowIndex windowCount requestedCount,
        contractSourceRequirements_count profile windowIndex windowCount requestedCount⟩,
    fun _ _ _ _ _ _ => parseSourceSelectionResponse_spec⟩
  · intro synthesisInputLimit catalog chosen s s' run
    unfold selectSourceCatalog at run
    split at run
    · cases (pure_ok_iff.mp run).1
    · cases limited : generationInputCharacterLimit (runtime.contextTokens .synthesize)
        sourceSelectionOutputTokens with
      | none =>
          rw [limited] at run
          cases (pure_ok_iff.mp run).1
      | some limit =>
          rw [limited] at run
          obtain ⟨rounds, reached⟩ := selectSources_reached .start run
          exact ⟨limit, rounds, reached⟩
  · intro limit candidates rounds current batches targetCount next reached round
    obtain ⟨exactly, fewer, -⟩ := round.survivors
    exact ⟨planSourceSelectionBatches_windowed round.planned,
      fun _ => sourceSelectionQuotas_spec, exactly, fewer, round.in_order, round.windows,
      fun later => round.unchanged (reached.placed later)⟩

/-- A runtime that answers each request with its number. -/
def numberingRuntime : ModelRuntime where
  runtimeId _ := "runtime"
  modelId _ := "model"
  contextTokens _ := 4096
  preflightRequest _ := .ok ()
  generate count _ := .ok ⟨toString count, "runtime", "model"⟩
  cancellationRequested _ := false

def fourCandidates : List SelectionCandidate :=
  (List.range 4).map fun index => ⟨⟨"s" ++ toString index, ⟨toString index, "ch", "1", "",
    "Rent is due.", ⟨1, 1, none, .nativeText⟩⟩, none, none⟩, 1, none, none⟩

def chosenSource (text : String) : Option RawSourceSelectionResponse :=
  some ⟨[if text = "0" then "s1" else "s3"], none, none, none, none, none⟩

/-- Two windows leave a candidate each. -/
example : ((requestWindows numberingRuntime chosenSource .general 0 2 0
    [(fourCandidates.take 3, 1), (fourCandidates.drop 3, 1)]).run' ⟨0, 0, 0, []⟩).join.bind
      (fun placed => (survivingSources fourCandidates 2 placed).toOption.map
        (·.1.map fun survivor => (survivor.requestId, survivor.selectionWindow))) =
    some [("s1", some 0), ("s3", some 1)] := by
  decide +kernel

end DocumentSummarizer.Coherent
