import DocumentSummarizer.Connect.DeliveryPrefix
import DocumentSummarizer.Pipeline.EvidenceResponses
import DocumentSummarizer.Pipeline.FurnitureSafety

/-! # Coverage of a delivery

More claims cover at least as many pages, so the longest prefix that fits the
wire is also the one that covers the most, and a job completes when any would do.
-/

namespace DocumentSummarizer.Connect

open Library Pipeline
open Ocr (InputArtifact JobResult)

/-! ## Totals -/

section Totals

variable {native cited more : Finset Nat} {omissions : List AnalysisPageOmission}

/-- The pages that may leave the total. -/
def omittedPages (omissions : List AnalysisPageOmission) : Finset Nat :=
  ((omissions.filter fun omission => omission.reason = .nonSubstantivePageFurniture ∨
    omission.reason = .noSubstantiveContent).map (·.pageNumber)).toFinset

theorem materialOmissions_eq (omissions : List AnalysisPageOmission) (cited : Finset Nat) :
    materialOmissions omissions cited = omittedPages omissions \ cited := by
  ext page
  simp only [materialOmissions, omittedPages, remainingPageOmissions, List.mem_toFinset,
    List.mem_map, List.mem_filter, Finset.mem_sdiff]
  constructor
  · rintro ⟨omission, ⟨⟨mem, uncited⟩, reason⟩, rfl⟩
    exact ⟨⟨omission, ⟨mem, reason⟩, rfl⟩, by simpa using uncited⟩
  · rintro ⟨⟨omission, ⟨mem, reason⟩, rfl⟩, uncited⟩
    exact ⟨omission, ⟨⟨mem, by simpa using uncited⟩, reason⟩, rfl⟩

theorem omitted_add_cited (inside : cited ⊆ native) :
    (materialOmissions omissions cited ∩ native).card + cited.card ≤ native.card := by
  rw [materialOmissions_eq, ← Finset.card_union_of_disjoint]
  · apply Finset.card_le_card
    exact Finset.union_subset Finset.inter_subset_right inside
  · rw [Finset.disjoint_left]
    intro page omitted
    exact (Finset.mem_sdiff.mp (Finset.mem_inter.mp omitted).1).2

theorem omitted_le (grows : cited ⊆ more) :
    (materialOmissions omissions cited ∩ native).card + cited.card ≤
      (materialOmissions omissions more ∩ native).card + more.card := by
  have cover : materialOmissions omissions cited ∩ native ⊆
      (materialOmissions omissions more ∩ native) ∪ (more \ cited) := by
    intro page omitted
    obtain ⟨out, inside⟩ := Finset.mem_inter.mp omitted
    rw [materialOmissions_eq] at out
    obtain ⟨among, uncited⟩ := Finset.mem_sdiff.mp out
    by_cases added : page ∈ more
    · exact Finset.mem_union_right _ (Finset.mem_sdiff.mpr ⟨added, uncited⟩)
    · apply Finset.mem_union_left
      rw [materialOmissions_eq]
      exact Finset.mem_inter.mpr ⟨Finset.mem_sdiff.mpr ⟨among, added⟩, inside⟩
  have size := (Finset.card_le_card cover).trans (Finset.card_union_le _ _)
  have rest := Finset.card_sdiff_add_card_eq_card grows
  omega

theorem coverageMet_iff (inside : cited ⊆ native) :
    coverageMet native cited omissions = true ↔ native.card ≤ cited.card * 2 ∧
      0 < native.card - (materialOmissions omissions cited ∩ native).card ∧
      (native.card - (materialOmissions omissions cited ∩ native).card) * 3 ≤ cited.card * 5 := by
  have fits := @omitted_add_cited native cited omissions inside
  simp only [coverageMet, Bool.and_eq_true, decide_eq_true_eq]
  constructor
  · rintro ⟨⟨⟨-, half⟩, positive⟩, share⟩
    exact ⟨half, positive, share⟩
  · rintro ⟨half, positive, share⟩
    exact ⟨⟨⟨by omega, half⟩, positive⟩, share⟩

theorem coverageMet_grows (grows : cited ⊆ more) (inside : more ⊆ native)
    (met : coverageMet native cited omissions = true) :
    coverageMet native more omissions = true := by
  obtain ⟨half, positive, share⟩ := (coverageMet_iff (grows.trans inside)).mp met
  have before := @omitted_add_cited native cited omissions (grows.trans inside)
  have after := @omitted_add_cited native more omissions inside
  have less := @omitted_le native cited more omissions grows
  have fewer : (materialOmissions omissions more ∩ native).card ≤
      (materialOmissions omissions cited ∩ native).card := by
    apply Finset.card_le_card
    rw [materialOmissions_eq, materialOmissions_eq]
    exact Finset.inter_subset_inter_right (Finset.sdiff_subset_sdiff (Finset.Subset.refl _) grows)
  have size := Finset.card_le_card grows
  apply (coverageMet_iff inside).mpr
  omega

end Totals

theorem deliveryPageCoverage_grows {unicode : Unicode} {normalized : NormalizedDocument}
    {omissions : List AnalysisPageOmission} {warnings : List PipelineWarning}
    {cited more : Finset Nat} (grows : cited ⊆ more)
    (inside : more ⊆ normalized.nativePages.toFinset)
    (met : deliveryPageCoverageWithWarnings unicode cited omissions normalized warnings =
      some true) :
    deliveryPageCoverageWithWarnings unicode more omissions normalized warnings = some true := by
  unfold deliveryPageCoverageWithWarnings at met ⊢
  dsimp only at met ⊢
  split at met
  · cases met
  · next native =>
      split at met
      · cases met
      · next known =>
          obtain ⟨some_page, -⟩ := not_or.mp native
          rw [if_neg (not_or.mpr ⟨some_page, not_not.mpr inside⟩), if_neg known]
          cases read : furnitureCoverageExclusions unicode warnings normalized with
          | none =>
              rw [read] at met
              cases met
          | some excluded =>
              rw [read] at met
              have covered : coverageMet (normalized.nativePages.toFinset \ excluded)
                  (cited \ excluded) omissions = true := Option.some.inj met
              have kept : ∀ {a b : Finset Nat}, a ⊆ b → a \ excluded ⊆ b \ excluded :=
                fun sub => Finset.sdiff_subset_sdiff sub (Finset.Subset.refl _)
              exact congrArg some (coverageMet_grows (kept grows) (kept inside) covered)

/-- Citing more of the document's pages never loses the coverage, and whatever is cited, the total
of pages never goes below what is taken out of it. -/
theorem page_coverage_is_monotone (unicode : Unicode) (normalized : NormalizedDocument)
    (omissions : List AnalysisPageOmission) (warnings : List PipelineWarning) :
    (∀ cited more : Finset Nat, cited ⊆ more → more ⊆ normalized.nativePages.toFinset →
      deliveryPageCoverageWithWarnings unicode cited omissions normalized warnings = some true →
      deliveryPageCoverageWithWarnings unicode more omissions normalized warnings = some true) ∧
    ∀ cited excluded : Finset Nat, cited ⊆ normalized.nativePages.toFinset →
      furnitureCoverageExclusions unicode warnings normalized = some excluded →
      (materialOmissions omissions (cited \ excluded) ∩
        (normalized.nativePages.toFinset \ excluded)).card + (cited \ excluded).card ≤
        (normalized.nativePages.toFinset \ excluded).card :=
  ⟨fun _ _ => deliveryPageCoverage_grows, fun _ _ inside _ =>
    omitted_add_cited (Finset.sdiff_subset_sdiff inside (Finset.Subset.refl _))⟩

theorem noticesDocument_nativePages : noticesDocument.nativePages = [1, 2] := by
  decide

/-- The second page holds nothing of substance. -/
def noticeOmissions : List AnalysisPageOmission :=
  [⟨2, "chunk", .noSubstantiveContent, .modelNoSubstantiveContent, "1", "print", none⟩]

theorem first_page_covers :
    deliveryPageCoverageWithWarnings .ascii {1} noticeOmissions noticesDocument [] =
      some true := by
  simp only [deliveryPageCoverageWithWarnings, noticesDocument_nativePages]
  decide

theorem second_page_keeps_coverage :
    deliveryPageCoverageWithWarnings .ascii {1, 2} noticeOmissions noticesDocument [] =
      some true := by
  obtain ⟨grows, -⟩ := page_coverage_is_monotone .ascii noticesDocument noticeOmissions []
  apply grows {1} {1, 2} (by decide) _ first_page_covers
  rw [noticesDocument_nativePages]
  decide

/-! ## Claims and their pages -/

section Claims

variable {evidence : List EvidenceItem} {few many : List CitedClaim} {citations : CitationArtifact}

theorem mapM_some_of_subset {α β : Type} {f : α → Option β} {small large : List α}
    {results : List β} (sub : ∀ a ∈ small, a ∈ large) (all : large.mapM f = some results) :
    ∃ part, small.mapM f = some part ∧ ∀ b ∈ part, b ∈ results := by
  rw [mapM_some_iff] at all
  induction small with
  | nil => exact ⟨[], rfl, fun b mem => absurd mem List.not_mem_nil⟩
  | cons a rest ih =>
      obtain ⟨part, read, inside⟩ := ih fun b mem => sub b (List.mem_cons_of_mem _ mem)
      obtain ⟨b, found, value⟩ := forall₂_left_exists all (sub a List.mem_cons_self)
      refine ⟨b :: part, ?_, ?_⟩
      · rw [List.mapM_cons, value, read]
        rfl
      · intro c mem
        rcases List.mem_cons.mp mem with rfl | later
        · exact found
        · exact inside c later

theorem claimPages_subset (sub : few ⊆ many) {pages : Finset Nat}
    (all : claimPages many evidence = some pages) :
    ∃ part, claimPages few evidence = some part ∧ part ⊆ pages := by
  simp only [claimPages, bind, Option.bind_eq_some_iff] at all
  obtain ⟨cited, read, same⟩ := all
  have ids : ∀ id ∈ few.flatMap (·.evidenceIds), id ∈ many.flatMap (·.evidenceIds) := by
    intro id mem
    obtain ⟨claim, inside, uses⟩ := List.mem_flatMap.mp mem
    exact List.mem_flatMap.mpr ⟨claim, sub inside, uses⟩
  obtain ⟨part, found, items⟩ := mapM_some_of_subset ids read
  obtain rfl := Option.some.inj same
  refine ⟨_, by simp only [claimPages, found]; rfl, ?_⟩
  intro page mem
  rw [List.mem_toFinset] at mem ⊢
  obtain ⟨item, inside, spans⟩ := List.mem_flatMap.mp mem
  exact List.mem_flatMap.mpr ⟨item, items item inside, spans⟩

/-- Every claim that a delivery may show. -/
def allDelivered (citations : CitationArtifact) : List CitedClaim :=
  match citations.contractExtraction with
  | some _ => citations.claims
  | none => presentedClaims citations.presentationMode citations.claims citations.summaryClaims

theorem deliveredClaims_eq {lines : List String}
    (rendered : renderCitationClaimLines citations = .ok lines) :
    ∃ shown : Nat → List CitedClaim,
      (∀ count, deliveredClaims citations count =
        if count = 0 ∨ lines.length < count then none else some (shown count)) ∧
      (∀ k n, k ≤ n → shown k ⊆ shown n) ∧ ∀ count, shown count ⊆ allDelivered citations := by
  simp only [renderCitationClaimLines, peel_ok, refuseIf_eq_ok, exists_const, return_ok] at rendered
  obtain ⟨lines', read, -, rfl⟩ := rendered
  unfold citationLines at read
  unfold deliveredClaims allDelivered
  cases extraction : citations.contractExtraction with
  | some extracted =>
      simp only [extraction, peel_ok, return_ok] at read
      obtain ⟨units, found, rfl⟩ := read
      refine ⟨fun count => citations.claims.filter
        (·.claimId ∈ (units.take count).flatMap (·.clauseIds)), ?_, ?_, ?_⟩
      · intro count
        simp only [found, List.length_map]
      · intro k n le claim mem
        obtain ⟨inside, named⟩ := List.mem_filter.mp mem
        refine List.mem_filter.mpr ⟨inside, ?_⟩
        simp only [decide_eq_true_eq, List.mem_flatMap] at named ⊢
        obtain ⟨unit, early, id⟩ := named
        exact ⟨unit, (List.take_subset_take_left units le) early, id⟩
      · intro count claim mem
        exact (List.mem_filter.mp mem).1
  | none =>
      simp only [extraction] at read
      refine ⟨fun count => (presentedClaims citations.presentationMode citations.claims
        citations.summaryClaims).take count, ?_, ?_, ?_⟩
      · intro count
        have length := (mapM_ok_iff.mp read).length_eq
        simp only [length]
      · intro k n le
        exact List.take_subset_take_left _ le
      · intro count
        exact List.take_subset _ _

end Claims

/-! ## Completing a job -/

section Completion

variable {codec : Codec} {unicode : Unicode} {citations : CitationArtifact}
  {omissions : List AnalysisPageOmission} {normalized : NormalizedDocument}
  {warnings : List PipelineWarning} {lines : List String}

/-- The claims cite evidence of the citations only, on pages that the document has as text. -/
def Grounded (citations : CitationArtifact) (normalized : NormalizedDocument) : Prop :=
  ∃ pages, claimPages (allDelivered citations) citations.evidence = some pages ∧
    pages ⊆ normalized.nativePages.toFinset

theorem prefix_coverage_grows (rendered : renderCitationClaimLines citations = .ok lines)
    (grounded : Grounded citations normalized) {k n : Nat} (le : k ≤ n) (inside : n ≤ lines.length)
    (covered : deliveryClaimPrefixCoverageSatisfied unicode citations k omissions normalized
      warnings = some true) :
    deliveryClaimPrefixCoverageSatisfied unicode citations n omissions normalized warnings =
      some true := by
  obtain ⟨shown, delivered, grows, among⟩ := deliveredClaims_eq rendered
  obtain ⟨pages, cited, native⟩ := grounded
  obtain ⟨few, readFew, fewSub⟩ := claimPages_subset (among k) cited
  obtain ⟨many, readMany, manySub⟩ := claimPages_subset (among n) cited
  obtain ⟨few', readFew', sub⟩ := claimPages_subset (grows k n le) readMany
  obtain rfl := Option.some.inj (readFew.symm.trans readFew')
  by_cases outside : k = 0 ∨ lines.length < k
  · simp only [deliveryClaimPrefixCoverageSatisfied, delivered, if_pos outside] at covered
    cases covered
  · have outside' : ¬ (n = 0 ∨ lines.length < n) := by omega
    simp only [deliveryClaimPrefixCoverageSatisfied, delivered, if_neg outside, readFew] at covered
    simp only [deliveryClaimPrefixCoverageSatisfied, delivered, if_neg outside', readMany]
    exact deliveryPageCoverage_grows sub (manySub.trans native) covered

theorem prefix_coverage_answers (identified : normalized.Identified) (count : Nat) :
    ∃ covered, deliveryClaimPrefixCoverageSatisfied unicode citations count omissions normalized
      warnings = some covered := by
  obtain ⟨excluded, read⟩ :=
    @Furniture.furnitureCoverageExclusions_isSome unicode normalized identified warnings
  unfold deliveryClaimPrefixCoverageSatisfied
  split
  · exact ⟨false, rfl⟩
  · split
    · exact ⟨false, rfl⟩
    · unfold deliveryPageCoverageWithWarnings
      dsimp only
      split
      · exact ⟨false, rfl⟩
      · split
        · exact ⟨false, rfl⟩
        · rw [read]
          exact ⟨_, rfl⟩

/-- Some whole-claim prefix, or the whole, is within the limits and covers the pages. -/
def Rescuable (unicode : Unicode) (input : InputArtifact) (summary : SummaryArtifact)
    (lines : List String) (citations : CitationArtifact)
    (omissions : List AnalysisPageOmission) (normalized : NormalizedDocument) : Prop :=
  ∃ count, 0 < count ∧ count ≤ lines.length ∧
    (PrefixFits input summary lines count ∨ count = lines.length ∧ WholeFits input summary) ∧
    deliveryClaimPrefixCoverageSatisfied unicode citations count omissions normalized
      summary.warnings = some true

theorem delivery_is_longest {input : InputArtifact} {summary : SummaryArtifact}
    {artifactId : String} {result : JobResult SummaryOutput} {count : Nat}
    (boundaries : Boundaries summary lines)
    (delivery : Delivery codec artifactId input summary lines result count) :
    0 < count ∧ count ≤ lines.length ∧
    (PrefixFits input summary lines count ∨ count = lines.length ∧ WholeFits input summary) ∧
    ∀ k, k ≤ lines.length → PrefixFits input summary lines k ∨
      k = lines.length ∧ WholeFits input summary → k ≤ count := by
  cases delivery with
  | whole fits =>
      exact ⟨List.length_pos_of_ne_nil boundaries.some_line, Nat.le_refl _, .inr ⟨rfl, fits⟩,
        fun k inside _ => inside⟩
  | shortened _ tooBig positive proper fits longest =>
      refine ⟨positive, proper.le, .inl fits, ?_⟩
      intro k inside other
      by_contra longer
      rcases other with short | ⟨-, whole⟩
      · exact longest k (Nat.lt_of_not_le longer) inside short
      · exact tooBig whole

/-- The citations render as the summary, and some whole-claim prefix of it can be delivered. -/
def Completable (unicode : Unicode) (input : InputArtifact) (summary : SummaryArtifact)
    (citations : CitationArtifact) (omissions : List AnalysisPageOmission)
    (normalized : NormalizedDocument) : Prop :=
  ∃ lines, renderCitationClaimLines citations = .ok lines ∧ Boundaries summary lines ∧
    Rescuable unicode input summary lines citations omissions normalized

/-- A job whose worker still runs it completes exactly when some whole-claim prefix of its
summary is within the wire limits and covers the pages, and it keeps what was delivered;
otherwise an error is answered and the database stays as it was. -/
theorem summary_is_delivered_when_possible {s : JobStore} {artifactId : String} {now : DateTime}
    {job current : StoredConnectJob} {summary : SummaryArtifact}
    (reach : (jobMachine codec).Reachable s) (stored : current ∈ s.connectJobs)
    (key : current.jobId = job.jobId) (running : current.state = .processing)
    (identified : normalized.Identified) (grounded : Grounded citations normalized) :
    (Completable unicode job.input summary citations omissions normalized →
      ∃ t lines result count, persistCompletedSummary codec unicode artifactId now job summary
          citations omissions normalized s = some (.ok (), t) ∧
        renderCitationClaimLines citations = .ok lines ∧
        Delivery codec artifactId job.input summary lines result count ∧
        current.moveTo .completed (some result) none now ∈ t.connectJobs) ∧
    (¬ Completable unicode job.input summary citations omissions normalized →
      ∃ e, persistCompletedSummary codec unicode artifactId now job summary citations
        omissions normalized s = some (.error e, s)) := by
  have ledger := ledger_of_reachable reach
  constructor
  · rintro ⟨lines, rendered, boundaries, k, positive, inside, fits, covered⟩
    have possible : WholeFits job.input summary ∨
        ∃ k, 0 < k ∧ k ≤ lines.length ∧ PrefixFits job.input summary lines k := by
      rcases fits with short | ⟨-, whole⟩
      · exact .inr ⟨k, positive, inside, short⟩
      · exact .inl whole
    obtain ⟨⟨result, count⟩, built⟩ := (@fromSummaryClaimLines_succeeds codec artifactId
      job.input summary lines).mpr ⟨boundaries, possible⟩
    obtain ⟨-, delivery⟩ := fromSummaryClaimLines_ok.mp built
    obtain ⟨-, within, -, longest⟩ := delivery_is_longest boundaries delivery
    have covers := prefix_coverage_grows rendered grounded (longest k inside fits) within covered
    obtain ⟨moves, -⟩ := @updateState_exact codec s ledger now job.jobId .processing .completed
      (some result) none .complete fun _ => rfl
    have marked : markCompleted now job.jobId result s = _ := moves current stored key running
    refine ⟨_, lines, result, count, ?_, rendered, delivery, updateJob_mem marked⟩
    simp only [persistCompletedSummary, rendered, built, covers, marked]
    rfl
  · intro hopeless
    unfold persistCompletedSummary
    cases rendered : renderCitationClaimLines citations with
    | error failure => exact ⟨_, rfl⟩
    | ok lines =>
        cases built : fromSummaryClaimLines codec artifactId job.input summary lines with
        | error e => exact ⟨.contract e, by simp only [built]⟩
        | ok delivered =>
            obtain ⟨result, count⟩ := delivered
            obtain ⟨boundaries, delivery⟩ := fromSummaryClaimLines_ok.mp built
            obtain ⟨positive, within, fits, -⟩ := delivery_is_longest boundaries delivery
            obtain ⟨covered, read⟩ := @prefix_coverage_answers unicode citations omissions
              normalized summary.warnings identified count
            simp only [built, read]
            cases covered with
            | true =>
                exact absurd ⟨lines, rendered, boundaries, count, positive, within, fits, read⟩
                  hopeless
            | false => exact ⟨_, rfl⟩

end Completion

def noticeSummary : SummaryArtifact where
  contractExtraction := none
  documentId := "document"
  summaryVersion := "5.0.0"
  text := "Rent is due. [p. 1]"
  warnings := []
  createdAt := 0
  integrityHash := "canonical"

def noticeCitations : CitationArtifact where
  contractExtraction := none
  documentId := "document"
  citationVersion := "4.0.0"
  summaryIntegrityHash := "canonical"
  renderedText := "Rent is due. [p. 1]"
  presentationMode := .coherent
  summaryClaims := [⟨"claim", "Rent is due.", ["evidence"]⟩]
  claims := []
  evidence := [⟨"evidence", noticesChunk.chunkId, dueBlock, "Rent is due.", "Rent is due monthly.",
    ⟨1, 1, none, .nativeText⟩⟩]
  createdAt := 0
  integrityHash := "canonical"

def startedJobs : JobStore :=
  acceptedJobs.afterCalls sampleCodec [.markProcessing 1 "job"]

/-- The job of a normalized document of two pages completes. -/
theorem started_notice_is_delivered : ∃ t lines result count,
    persistCompletedSummary sampleCodec .ascii "output" 2 (sampleAdmission.row "root" 0)
      noticeSummary noticeCitations noticeOmissions noticesDocument startedJobs =
        some (.ok (), t) ∧
    renderCitationClaimLines noticeCitations = .ok lines ∧
    Delivery sampleCodec "output" sampleInput noticeSummary lines result count := by
  have rows : startedJobs.connectJobs =
      [{ sampleAdmission.row "root" 0 with state := .processing, updatedAt := 1 }] := by
    decide +kernel
  have stored := List.mem_singleton.mpr (Eq.refl
    { sampleAdmission.row "root" 0 with state := .processing, updatedAt := 1 })
  rw [← rows] at stored
  have reach : (jobMachine sampleCodec).Reachable startedJobs :=
    reachable_acceptedJobs.extend (run_afterJobCalls sampleCodec _ _)
  have rendered : renderCitationClaimLines noticeCitations = .ok ["Rent is due. [p. 1]"] := by
    decide +kernel
  have boundaries : Boundaries noticeSummary ["Rent is due. [p. 1]"] :=
    ⟨by decide, by decide, by decide⟩
  have grounded : Grounded noticeCitations noticesDocument := by
    refine ⟨{1}, by decide, ?_⟩
    rw [noticesDocument_nativePages]
    decide
  have whole : WholeFits sampleInput noticeSummary :=
    ⟨by decide, ⟨by decide, fun _ mem => absurd mem List.not_mem_nil⟩, by decide +kernel⟩
  obtain ⟨completes, -⟩ := @summary_is_delivered_when_possible sampleCodec .ascii noticeCitations
    noticeOmissions noticesDocument startedJobs "output" 2 (sampleAdmission.row "root" 0) _
    noticeSummary reach stored rfl rfl (identified_of_normalize notices_normalize) grounded
  obtain ⟨t, lines, result, count, done, shown, delivery, -⟩ := completes ⟨_, rendered, boundaries,
    1, Nat.one_pos, Nat.le_refl _, .inr ⟨rfl, whole⟩, first_page_covers⟩
  exact ⟨t, lines, result, count, done, shown, delivery⟩

end DocumentSummarizer.Connect
