import DocumentSummarizer.Coherent.UnitAdmission
import DocumentSummarizer.Pipeline.Composition

/-! # The segments that are offered

Of a page with many segments the prompt offers the first, the middle and the last.  To
balance again changes nothing, and whatever is offered may be cited.
-/

namespace DocumentSummarizer.Coherent

open DocumentSummarizer.Library DocumentSummarizer.Pipeline

/-! ## Positions -/

section Positions

variable {indexes : List Nat}

theorem mem_balancedIndexes_of_few (few : indexes.length ≤ 3) {index : Nat}
    (mem : index ∈ indexes) : index ∈ balancedIndexes indexes := by
  match indexes, few with
  | [a], _ => simpa [balancedIndexes] using mem
  | [a, b], _ => simpa [balancedIndexes] using mem
  | [a, b, c], _ => simpa [balancedIndexes] using mem

theorem balancedIndexes_subset (nonempty : indexes ≠ []) :
    ∀ index ∈ balancedIndexes indexes, index ∈ indexes := by
  have positive := List.length_pos_iff.mpr nonempty
  have held (n : Nat) (inside : n < indexes.length) : indexes.getD n 0 ∈ indexes := by
    rw [List.getD_eq_getElem?_getD, List.getElem?_eq_getElem inside]
    exact List.getElem_mem inside
  intro index mem
  simp only [balancedIndexes, List.mem_cons, List.not_mem_nil, or_false] at mem
  rcases mem with rfl | rfl | rfl
  · exact held 0 positive
  · exact held _ (by omega)
  · exact held _ (by omega)

theorem length_le_three {positions : List Nat} (once : positions.Nodup)
    (within : ∀ index ∈ positions, index ∈ balancedIndexes indexes) : positions.length ≤ 3 :=
  (List.subperm_of_subset once within).length_le

end Positions

/-! ## Balancing -/

section Balancing

variable {candidates : List SourceCandidate}

/-- The segments that are kept. -/
def balanced (candidates : List SourceCandidate) : List SourceCandidate :=
  (candidates.zipIdx.filter fun entry => keptAt candidates entry.2).map (·.1)

theorem mem_pageIndexes {page index : Nat} :
    index ∈ pageIndexes candidates page ↔
      ∃ candidate, candidates[index]? = some candidate ∧
        candidate.evidence.sourceSpan.pageStart = page := by
  simp only [pageIndexes, List.mem_map, List.mem_filter, List.mem_zipIdx_iff_getElem?,
    decide_eq_true_eq]
  constructor
  · rintro ⟨entry, ⟨here, same⟩, rfl⟩
    exact ⟨entry.1, here, same⟩
  · rintro ⟨candidate, here, same⟩
    exact ⟨(candidate, index), ⟨here, same⟩, rfl⟩

theorem pageIndexes_length (page : Nat) :
    (pageIndexes candidates page).length =
      (candidates.filter fun candidate =>
        decide (candidate.evidence.sourceSpan.pageStart = page)).length := by
  have dropped := List.filter_map (l := candidates.zipIdx) (f := (·.1))
    (p := fun candidate : SourceCandidate =>
      decide (candidate.evidence.sourceSpan.pageStart = page))
  rw [List.zipIdx_map_fst] at dropped
  rw [dropped, pageIndexes, List.length_map, List.length_map]
  rfl

theorem balanced_sublist : (balanced candidates).Sublist candidates := by
  have kept := (List.filter_sublist (l := candidates.zipIdx)
    (p := fun entry => keptAt candidates entry.2)).map (·.1)
  rwa [List.zipIdx_map_fst] at kept

theorem keptAt_iff {index : Nat} {candidate : SourceCandidate}
    (here : candidates[index]? = some candidate) :
    keptAt candidates index = true ↔
      index ∈ balancedIndexes
        (pageIndexes candidates candidate.evidence.sourceSpan.pageStart) := by
  simp [keptAt, here]

theorem balanced_page_few (page : Nat) : (pageIndexes (balanced candidates) page).length ≤ 3 := by
  rw [pageIndexes_length, balanced, List.filter_map, List.length_map, List.filter_filter]
  rw [← List.length_map (f := (·.2))]
  apply length_le_three
  · apply List.Nodup.sublist (List.filter_sublist.map _)
    rw [List.zipIdx_map_snd]
    exact List.nodup_range'
  · intro index mem
    obtain ⟨entry, kept, rfl⟩ := List.mem_map.mp mem
    simp only [List.mem_filter, List.mem_zipIdx_iff_getElem?, Function.comp, Bool.and_eq_true,
      decide_eq_true_eq] at kept
    obtain ⟨here, same, held⟩ := kept
    rw [keptAt_iff here, same] at held
    exact held

theorem balanced_balanced : balanced (balanced candidates) = balanced candidates := by
  generalize few : balanced candidates = kept
  have all : kept.zipIdx.filter (fun entry => keptAt kept entry.2) = kept.zipIdx := by
    rw [List.filter_eq_self]
    intro entry mem
    have here := List.mem_zipIdx_iff_getElem?.mp mem
    rw [keptAt_iff here]
    apply mem_balancedIndexes_of_few
    · rw [← few]
      exact balanced_page_few _
    · exact mem_pageIndexes.mpr ⟨entry.1, here, rfl⟩
  rw [balanced, all, List.zipIdx_map_fst]

theorem balanced_keeps {page index : Nat} {candidate : SourceCandidate}
    (present : pageIndexes candidates page ≠ [])
    (chosen : index ∈ balancedIndexes (pageIndexes candidates page))
    (here : candidates[index]? = some candidate) : candidate ∈ balanced candidates := by
  obtain ⟨candidate', there, same⟩ :=
    mem_pageIndexes.mp (balancedIndexes_subset present index chosen)
  cases here.symm.trans there
  refine List.mem_map.mpr ⟨(candidate, index), List.mem_filter.mpr
    ⟨List.mem_zipIdx_iff_getElem?.mpr here, ?_⟩, rfl⟩
  rw [keptAt_iff here, same]
  exact chosen

end Balancing

section Offers

variable {catalog : SourceCatalog} {version : String}

theorem pageBalanced_general (current : version ∈ balancedVersions) :
    pageBalancedCatalog .general version catalog =
      ⟨balanced catalog.candidates, catalog.omittedSourceUnits⟩ := by
  rw [pageBalancedCatalog, if_pos ⟨rfl, current⟩]
  rfl

theorem offered_known {profile : SummaryProfile} {ids : List String}
    (offered : offeredSourceIds profile version catalog = .ok ids) {sourceId : String}
    (mem : sourceId ∈ ids) : sourceId ∈ catalog.candidates.map (·.requestId) := by
  simp only [offeredSourceIds, peel_ok, return_ok] at offered
  obtain ⟨_, _, rfl⟩ := offered
  have kept : (pageBalancedCatalog profile version catalog).candidates.Sublist
      catalog.candidates := by
    unfold pageBalancedCatalog
    split
    · exact balanced_sublist
    · exact List.Sublist.refl _
  exact (kept.map _).subset mem

theorem admissible_single {tables : CompletionTables} {profile : SummaryProfile}
    {maximumUnits maximumCharacters : Nat} {text sourceId : String}
    (distinct : DistinctSources catalog) (room : 1 ≤ maximumUnits)
    (canonical : canonicalBoundedText text maximumCharacters = true)
    (complete : completionValid tables text.toList = true)
    (known : sourceId ∈ catalog.candidates.map (·.requestId)) :
    Admissible tables profile catalog maximumUnits maximumCharacters ⟨[⟨text, [sourceId]⟩]⟩ := by
  have sole : ∀ a ∈ citedSources catalog ⟨text, [sourceId]⟩,
      ∀ b ∈ citedSources catalog ⟨text, [sourceId]⟩, a = b := by
    intro a memA b memB
    simp only [citedSources, List.mem_filter, List.mem_singleton, decide_eq_true_eq] at memA memB
    obtain ⟨i, inside, rfl⟩ := List.mem_iff_getElem.mp memA.1
    obtain ⟨j, within, rfl⟩ := List.mem_iff_getElem.mp memB.1
    have same := getElem?_inj_of_requestId distinct (List.getElem?_eq_getElem inside)
      (List.getElem?_eq_getElem within) (memA.2.trans memB.2.symm)
    subst same
    rfl
  refine ⟨by simp, by simpa using room, ?_, by simp⟩
  intro unit mem
  rw [List.mem_singleton] at mem
  subst mem
  exact ⟨canonical, complete, by simp, by simp [maxSourcesOfUnit], by simp, by simpa using known,
    fun a memA b memB => by rw [sole a memA b memB],
    fun _ a memA b memB => by rw [sole a memA b memB]⟩

end Offers

/-! ## Whole answers -/

/-- For the General and Story profiles, an answer is taken exactly when it is admissible; then
its claims are its units in their order, and its evidence is what they cite, in catalog order.
Every id that is offered to a General summary may be cited. -/
theorem response_units_admitted (platform : UnitPlatform)
    (injective : Function.Injective platform.text.sha256Hex) {profile : SummaryProfile}
    (plain : profile ≠ .contract) {catalog : SourceCatalog} (distinct : DistinctSources catalog)
    (response documentId : String) (maximumUnits maximumCharacters : Nat) :
    ((∃ content, parseResponseWithLimits platform profile response documentId catalog maximumUnits
        maximumCharacters = .ok content) ↔
      ∃ raw, platform.fromStr response = some raw ∧
        Admissible platform.tables profile catalog maximumUnits maximumCharacters raw) ∧
    (∀ raw claims evidence, platform.fromStr response = some raw →
      parseResponseWithLimits platform profile response documentId catalog maximumUnits
        maximumCharacters = .ok (claims, evidence) →
      claims.map (fun claim => (claim.text, claim.evidenceIds)) =
        raw.units.map (renderedUnit profile catalog) ∧
      evidence.Sublist (catalog.candidates.map (·.evidence)) ∧ evidence.Nodup ∧
      ∀ item, item ∈ evidence ↔ item ∈ catalog.candidates.map (·.evidence) ∧
        ∃ claim ∈ claims, item.evidenceId ∈ claim.evidenceIds) ∧
    (∀ version ∈ balancedVersions,
      pageBalancedCatalog .general version (pageBalancedCatalog .general version catalog) =
        pageBalancedCatalog .general version catalog ∧
      (pageBalancedCatalog .general version catalog).candidates.Sublist catalog.candidates ∧
      (∀ page index candidate, pageIndexes catalog.candidates page ≠ [] →
        index ∈ balancedIndexes (pageIndexes catalog.candidates page) →
        catalog.candidates[index]? = some candidate →
        candidate ∈ (pageBalancedCatalog .general version catalog).candidates) ∧
      ∀ ids sourceId text, offeredSourceIds .general version catalog = .ok ids →
        sourceId ∈ ids → 1 ≤ maximumUnits →
        canonicalBoundedText text maximumCharacters = true →
        completionValid platform.tables text.toList = true →
        platform.fromStr response = some ⟨[⟨text, [sourceId]⟩]⟩ →
        ∃ content, parseResponseWithLimits platform .general response documentId catalog
          maximumUnits maximumCharacters = .ok content) := by
  refine ⟨⟨?_, ?_⟩, ?_, ?_⟩
  · rintro ⟨⟨claims, evidence⟩, parsed⟩
    obtain ⟨raw, read, admissible, _⟩ := parseResponse_spec distinct plain parsed
    exact ⟨raw, read, admissible⟩
  · rintro ⟨raw, read, admissible⟩
    exact parseResponse_complete injective distinct plain read admissible
  · intro raw claims evidence read parsed
    obtain ⟨raw', read', _, texts, _, rfl⟩ := parseResponse_spec distinct plain parsed
    cases read.symm.trans read'
    have once : (catalog.candidates.map (·.evidence)).Nodup := by
      apply List.Nodup.of_map (·.evidenceId)
      rw [List.map_map]
      exact distinct.evidence
    refine ⟨texts, List.filter_sublist.map _, once.sublist (List.filter_sublist.map _), ?_⟩
    intro item
    simp only [List.mem_map, List.mem_filter, List.mem_flatMap, decide_eq_true_eq]
    constructor
    · rintro ⟨candidate, ⟨mem, claim, held, cites⟩, rfl⟩
      exact ⟨⟨candidate, mem, rfl⟩, claim, held, cites⟩
    · rintro ⟨⟨candidate, mem, rfl⟩, claim, held, cites⟩
      exact ⟨candidate, ⟨mem, claim, held, cites⟩, rfl⟩
  · intro version current
    refine ⟨?_, ?_, ?_, ?_⟩
    · rw [pageBalanced_general current, pageBalanced_general current, balanced_balanced]
    · rw [pageBalanced_general current]
      exact balanced_sublist
    · intro page index candidate present chosen here
      rw [pageBalanced_general current]
      exact balanced_keeps present chosen here
    · intro ids sourceId text offered mem room canonical complete read
      exact parseResponse_complete injective distinct (by decide) read
        (admissible_single distinct room canonical complete (offered_known offered mem))

/-! ## One page of two segments -/

def sampleCandidate (requestId evidenceId : String) : SourceCandidate where
  requestId := requestId
  evidence :=
    ⟨evidenceId, "chunk-1", "block-1", "Claim.", "Quote.", ⟨1, 1, none, .nativeText⟩⟩
  selectionWindow := none
  sourceFraming := none

def sampleCatalog : SourceCatalog where
  candidates := [sampleCandidate "s1" "evidence-1", sampleCandidate "s2" "evidence-2"]
  omittedSourceUnits := 0

def sampleUnitPlatform : UnitPlatform where
  text := ⟨byteCode, Char.isUpper⟩
  tables := ⟨.ascii, fun c => c == '$'⟩
  fromStr text := if text = "answer" then some ⟨[⟨"Rent is due.", ["s2", "s1"]⟩]⟩ else none
  attachContractClauseReferences _ validated := .ok validated

theorem sampleCatalog_distinct : DistinctSources sampleCatalog := ⟨by decide, by decide⟩

theorem response_units_admitted_of_two :
    ∃ content, parseResponseWithLimits sampleUnitPlatform .general "answer" "document-1"
        sampleCatalog 3 1200 = .ok content ∧
      Admissible sampleUnitPlatform.tables .general sampleCatalog 3 1200
        ⟨[⟨"Rent is due.", ["s2", "s1"]⟩]⟩ := by
  obtain ⟨content, parsed⟩ := exists_ok (show (parseResponseWithLimits sampleUnitPlatform .general
    "answer" "document-1" sampleCatalog 3 1200).isOk = true by decide +kernel)
  obtain ⟨raw, read, admissible⟩ := (response_units_admitted sampleUnitPlatform byteCode_injective
    (by decide) sampleCatalog_distinct "answer" "document-1" 3 1200).1.mp ⟨content, parsed⟩
  obtain rfl := Option.some.inj read
  exact ⟨content, parsed, admissible⟩

end DocumentSummarizer.Coherent
