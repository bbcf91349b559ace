import Mathlib.Algebra.Order.Floor.Div
import Mathlib.Data.Finset.Sort
import DocumentSummarizer.Library.EvenSpacing
import DocumentSummarizer.Pipeline.SourceIdentity
import DocumentSummarizer.Pipeline.VerificationBatches

/-! # Selecting the pages to analyze

An analysis inspects a bounded sample of the native-text pages.  The historical
sample is spaced over all pages; the retention versions keep it and space their
additions over the pages it left out.
-/

namespace DocumentSummarizer.Pipeline

open Library

/-- `usize::MAX` on a 64-bit target. -/
def usizeMax : Nat := 18446744073709551615

def checkedMul (a b : Nat) : Option Nat :=
  if a * b ≤ usizeMax then some (a * b) else none

def checkedAdd (a b : Nat) : Option Nat :=
  if a + b ≤ usizeMax then some (a + b) else none

def checkedSub (a b : Nat) : Option Nat :=
  if b ≤ a then some (a - b) else none

def saturatingAdd (a b : Nat) : Nat :=
  min (a + b) usizeMax

/-- How a computation ends without a result: in a failure that it reports, or in a panic. -/
inductive Interruption where
  | failure (failure : PipelineFailure)
  | panicked
  deriving DecidableEq, Repr

abbrev Interruptible := Except Interruption

/-- `?` on a computation that does not panic. -/
def propagate {α : Type} (result : Except PipelineFailure α) : Interruptible α :=
  result.mapError .failure

/-- `items[index]` -/
def indexed {α : Type} (items : List α) (index : Nat) : Interruptible α :=
  okOrElse items[index]? .panicked

/-- `a - b` on `usize` -/
def minus (a b : Nat) : Interruptible Nat :=
  okOrElse (checkedSub a b) .panicked

def invalidAnalysisBudget (message : String) : PipelineFailure :=
  stageFailure .analyze "INVALID_ANALYSIS_BUDGET" message false

/-! ## Versions and bounds -/

def analysisVersion : String := "14.0.0"
def sentenceAnalysisVersion : String := "13.0.0"
def quoteBoundaryAnalysisVersion : String := "12.0.0"
def punctuationAnalysisVersion : String := "11.0.0"
def tolerantAnalysisVersion : String := "10.0.0"
def directAnalysisVersion : String := "9.0.0"
def retentionAnalysisVersion : String := "8.0.0"

/-- The versions whose retention target is `direct::retention_target`. -/
def directAnalysisVersions : List String :=
  [analysisVersion, sentenceAnalysisVersion, quoteBoundaryAnalysisVersion,
    punctuationAnalysisVersion, tolerantAnalysisVersion, directAnalysisVersion]

def maxEvidencePerClaim : Nat := 16

def retentionWithheldClaimReserve : Nat := 1

/-- `value.clamp(low, high)` -/
def clamp (value low high : Nat) : Nat :=
  max low (min value high)

/-! ## The selection -/

/-- A page with a visible textual block. -/
def NormalizedPage.hasNativeText (page : NormalizedPage) : Bool :=
  page.content.any fun block => block.source.sourceType.isTextual && !isBlank block.text

/-- The numbers of the pages with native text, in document order. -/
def NormalizedDocument.nativePages (normalized : NormalizedDocument) : List Nat :=
  (normalized.pages.filter (·.hasNativeText)).map (·.pageNumber)

def analysisScopeMinimum (pageCount : Nat) : Except PipelineFailure Nat := do
  let scaled ← okOrElse ((checkedMul pageCount 3).bind (checkedAdd · 4))
    (invalidAnalysisBudget "The analysis page scope exceeds the supported evidence-floor range")
  return max (scaled / 5) 1

def documentClaimBudget (normalized : NormalizedDocument) : Except PipelineFailure Nat := do
  let scaledPages ← okOrElse ((checkedMul normalized.nativePages.length 3).bind (checkedAdd · 4))
    (stageFailure .synthesize "INVALID_SYNTHESIS_BUDGET"
      "The native-text page count exceeds the supported claim-budget range" false)
  return clamp (scaledPages / 5) 8 legacyMaxSummaryClaims

/-- The historical sample.  The products are taken in `u128`, which holds them. -/
def analysisSelectedPages (normalized : NormalizedDocument) : Interruptible (Finset Nat) := do
  let pages := normalized.nativePages
  let coverage ← propagate (analysisScopeMinimum pages.length)
  let budget ← propagate (documentClaimBudget normalized)
  let target := min pages.length (max budget coverage)
  let picked ← (List.range target).mapM fun index => do
    let pageIndex ←
      if target ≤ 1 then
        pure 0
      else do
        let last ← minus pages.length 1
        pure (index * last / (target - 1))
    indexed pages pageIndex
  return picked.toFinset

/-- `direct::retention_target` -/
def directRetentionTarget (pages : Nat) : Except PipelineFailure Nat := do
  let acceptance ← analysisScopeMinimum pages
  refuseIf (pages = 0 ∨ directMaxClaims < acceptance)
    (stageFailure .analyze "ANALYSIS_COVERAGE_CAPACITY_UNSATISFIABLE"
      "Raw page acceptance exceeds the one-to-one claim capacity" false)
  return min (min pages (saturatingAdd acceptance 16)) directMaxClaims

def analysisRetentionTarget (nativePages : Nat) : Except PipelineFailure Nat := do
  let invalid := invalidAnalysisBudget
    "Retention requires native-text pages and checked coverage arithmetic"
  refuseIf (nativePages = 0) invalid
  let acceptance ← analysisScopeMinimum nativePages
  let capacity ← okOrElse
    (checkedMul (clamp acceptance 8 legacyMaxSummaryClaims) maxEvidencePerClaim) invalid
  refuseIf (capacity < acceptance)
    (stageFailure .analyze "ANALYSIS_COVERAGE_CAPACITY_UNSATISFIABLE"
      "Native-page acceptance exceeds the bounded claim-reference capacity" false)
  let reserve ← okOrElse (checkedMul retentionWithheldClaimReserve maxEvidencePerClaim) invalid
  let bound ← okOrElse (checkedAdd acceptance reserve) invalid
  return min (min nativePages bound) capacity

/-- Spreads the additions over the unused pages. -/
def spreadAdditions (unused : List Nat) (additional : Nat) (selected : Finset Nat) :
    Interruptible (Finset Nat) :=
  (List.range additional).foldlM (fun selected index => do
    let position ←
      if additional ≤ 1 then
        pure (unused.length / 2)
      else do
        let last ← minus unused.length 1
        pure (index * last / (additional - 1))
    let page ← indexed unused position
    return insert page selected) selected

def versionedAnalysisSelectedPages (normalized : NormalizedDocument) (version : String) :
    Interruptible (Finset Nat) := do
  -- historical plans must not acquire new retention obligations
  let selected ← analysisSelectedPages normalized
  if version ∉ directAnalysisVersions ∧ version ≠ retentionAnalysisVersion then
    return selected
  else
    let pages := normalized.nativePages
    let target ← propagate
      (if version ∈ directAnalysisVersions then directRetentionTarget pages.length
      else analysisRetentionTarget pages.length)
    let unused := pages.filter (· ∉ selected)
    let additional ← okOrElse (checkedSub target selected.card)
      (.failure (invalidAnalysisBudget "Retention cannot shrink the historical sample"))
    spreadAdditions unused additional selected

/-! ## The bounds -/

theorem propagate_ok {α : Type} {a : α} : propagate (.ok a : Except PipelineFailure α) = .ok a :=
  rfl

@[simp] theorem ok_then {ε α β : Type} (a : α) (rest : α → Except ε β) :
    (Except.ok a >>= rest) = rest a :=
  rfl

theorem analysisScopeMinimum_ok {n : Nat} (small : n * 3 + 4 ≤ usizeMax) :
    analysisScopeMinimum n = .ok (max ((n * 3 + 4) / 5) 1) := by
  have product : n * 3 ≤ usizeMax := by omega
  simp only [analysisScopeMinimum, checkedMul, checkedAdd, product, small, if_true,
    Option.bind_some, okOrElse_some, ok_then]
  rfl

theorem documentClaimBudget_ok {normalized : NormalizedDocument}
    (small : normalized.nativePages.length * 3 + 4 ≤ usizeMax) :
    documentClaimBudget normalized =
      .ok (clamp ((normalized.nativePages.length * 3 + 4) / 5) 8 legacyMaxSummaryClaims) := by
  have product : normalized.nativePages.length * 3 ≤ usizeMax := by omega
  simp only [documentClaimBudget, checkedMul, checkedAdd, product, small, if_true,
    Option.bind_some, okOrElse_some, ok_then]
  rfl

/-- The size of the historical sample. -/
def historicalTarget (pages : Nat) : Nat :=
  min pages (max (clamp ((pages * 3 + 4) / 5) 8 legacyMaxSummaryClaims)
    (max ((pages * 3 + 4) / 5) 1))

/-- The size of the direct versions' selection. -/
def directTarget (pages : Nat) : Nat :=
  min (min pages ((pages * 3 + 4) / 5 + 16)) directMaxClaims

theorem directRetentionTarget_ok {n : Nat} (some_page : 1 ≤ n)
    (fits : (n * 3 + 4) / 5 ≤ directMaxClaims) :
    directRetentionTarget n = .ok (directTarget n) := by
  rw [directMaxClaims] at fits
  have small : n * 3 + 4 ≤ usizeMax := by
    rw [usizeMax]
    omega
  have floor : max ((n * 3 + 4) / 5) 1 = (n * 3 + 4) / 5 := by omega
  have accepted : ¬ (n = 0 ∨ directMaxClaims < (n * 3 + 4) / 5) := by
    rw [directMaxClaims]
    omega
  have unsaturated : saturatingAdd ((n * 3 + 4) / 5) 16 = (n * 3 + 4) / 5 + 16 := by
    rw [saturatingAdd, usizeMax]
    omega
  rw [directRetentionTarget, analysisScopeMinimum_ok small, floor]
  simp only [ok_then, refuseIf_of_not accepted, unsaturated]
  rfl

theorem historicalTarget_le (pages : Nat) : historicalTarget pages ≤ pages :=
  Nat.min_le_left _ _

theorem historicalTarget_le_directTarget {n : Nat} (fits : (n * 3 + 4) / 5 ≤ directMaxClaims) :
    historicalTarget n ≤ directTarget n := by
  simp only [historicalTarget, directTarget, clamp, legacyMaxSummaryClaims, directMaxClaims] at fits ⊢
  omega

/-! ## Picking -/

section Picking

variable {pages : List Nat}

theorem indexed_eq_ok {α : Type} {items : List α} {index : Nat} {a : α} :
    indexed items index = .ok a ↔ items[index]? = some a :=
  okOrElse_eq_ok

theorem minus_one {n : Nat} (positive : 1 ≤ n) : minus n 1 = .ok (n - 1) := by
  simp [minus, checkedSub, positive]

theorem picks_exist {position : Nat → Nat} {count : Nat}
    (inside : ∀ i < count, position i < pages.length) :
    ∃ picked, List.Forall₂ (fun i a => pages[position i]? = some a) (List.range count) picked := by
  rw [exists_forall₂_iff]
  intro i mem
  exact ⟨_, List.getElem?_eq_getElem (inside i (List.mem_range.mp mem))⟩

theorem picks_subset {position : Nat → Nat} {indices picked : List Nat}
    (picks : List.Forall₂ (fun i a => pages[position i]? = some a) indices picked) :
    ∀ a ∈ picked, a ∈ pages := by
  intro a mem
  obtain ⟨n, hn, rfl⟩ := List.getElem_of_mem mem
  have long := picks.length_eq
  exact List.mem_of_getElem? (List.Forall₂.get picks (by omega) hn)

theorem picks_mem {position : Nat → Nat} {count i : Nat} {picked : List Nat} {a : Nat}
    (picks : List.Forall₂ (fun i a => pages[position i]? = some a) (List.range count) picked)
    (below : i < count) (found : pages[position i]? = some a) : a ∈ picked := by
  have long : count = picked.length := by simpa using picks.length_eq
  have here := List.Forall₂.get picks (by simpa using below) (long ▸ below)
  simp only [List.get_eq_getElem, List.getElem_range] at here
  rw [here] at found
  obtain rfl := Option.some.inj found
  exact List.getElem_mem _

theorem insertions_eq {body : Finset Nat → Nat → Interruptible (Finset Nat)}
    {position : Nat → Nat} (step : ∀ selected i a, pages[position i]? = some a →
      body selected i = .ok (insert a selected)) {indices picked : List Nat}
    (picks : List.Forall₂ (fun i a => pages[position i]? = some a) indices picked)
    (selected : Finset Nat) :
    indices.foldlM body selected = .ok (selected ∪ picked.toFinset) := by
  induction picks generalizing selected with
  | nil => simp [pure, Except.pure]
  | @cons i a indices picked found _ ih =>
      rw [List.foldlM_cons, step selected i a found, ok_then, ih]
      congr 1
      ext page
      simp only [Finset.mem_union, Finset.mem_insert, List.mem_toFinset, List.mem_cons]
      tauto

end Picking

/-! ## The samples -/

section Samples

variable {normalized : NormalizedDocument}

/-- The position that the historical sample takes at an index. -/
def historicalPosition (pages index : Nat) : Nat :=
  if historicalTarget pages ≤ 1 then 0 else spaced (historicalTarget pages) pages index

theorem historicalPosition_lt {n index : Nat} (inside : index < historicalTarget n) :
    historicalPosition n index < n := by
  have fits := historicalTarget_le n
  unfold historicalPosition
  split
  · omega
  · exact spaced_inside (by omega) fits inside

theorem historicalPosition_injective {n : Nat} : ∀ i < historicalTarget n,
    ∀ j < historicalTarget n, historicalPosition n i = historicalPosition n j → i = j := by
  intro i hi j hj same
  unfold historicalPosition at same
  split at same
  · omega
  · exact spaced_injective (by omega) (historicalTarget_le n) same

/-- The historical sample: as many distinct native pages as its target, the first and the last
of them among these. -/
theorem analysisSelectedPages_spec (distinct : normalized.nativePages.Nodup)
    (some_page : 1 ≤ normalized.nativePages.length)
    (small : normalized.nativePages.length * 3 + 4 ≤ usizeMax) :
    ∃ selected, analysisSelectedPages normalized = .ok selected ∧
      selected.card = historicalTarget normalized.nativePages.length ∧
      (∀ page ∈ selected, page ∈ normalized.nativePages) ∧
      (∀ page, normalized.nativePages.head? = some page → page ∈ selected) ∧
      ∀ page, normalized.nativePages.getLast? = some page → page ∈ selected := by
  obtain ⟨picked, picks⟩ := @picks_exist normalized.nativePages _
    (historicalTarget normalized.nativePages.length) fun i => historicalPosition_lt
  have nodup := card_of_picks distinct picks historicalPosition_injective
  have long : picked.length = historicalTarget normalized.nativePages.length := by
    simpa using picks.length_eq.symm
  have positive : 1 ≤ historicalTarget normalized.nativePages.length := by
    simp only [historicalTarget, clamp, legacyMaxSummaryClaims]
    omega
  refine ⟨picked.toFinset, ?_, ?_, ?_, ?_, ?_⟩
  · have sampled : (List.range (historicalTarget normalized.nativePages.length)).mapM
        (fun index => do
          let pageIndex ←
            if historicalTarget normalized.nativePages.length ≤ 1 then
              pure 0
            else do
              let last ← minus normalized.nativePages.length 1
              pure (index * last / (historicalTarget normalized.nativePages.length - 1))
          indexed normalized.nativePages pageIndex) = .ok picked := by
      rw [mapM_ok_iff]
      apply picks.imp
      intro i a found
      unfold historicalPosition at found
      split at found
      next single =>
        simp only [single, if_true, pure_bind]
        exact indexed_eq_ok.mpr found
      next several =>
        simp only [several, if_false, minus_one some_page, ok_then, pure_bind]
        exact indexed_eq_ok.mpr found
    have target : min normalized.nativePages.length
        (max (clamp ((normalized.nativePages.length * 3 + 4) / 5) 8 legacyMaxSummaryClaims)
          (max ((normalized.nativePages.length * 3 + 4) / 5) 1)) =
        historicalTarget normalized.nativePages.length := rfl
    simp only [analysisSelectedPages, analysisScopeMinimum_ok small, documentClaimBudget_ok small,
      propagate_ok, ok_then, target]
    rw [sampled]
    rfl
  · rw [List.toFinset_card_of_nodup nodup, long]
  · intro page mem
    exact picks_subset picks page (List.mem_toFinset.mp mem)
  · intro page first
    rw [List.mem_toFinset]
    apply picks_mem picks (i := 0) (by omega)
    have start : historicalPosition normalized.nativePages.length 0 = 0 := by
      simp [historicalPosition, spaced_zero]
    rw [start, ← List.head?_eq_getElem?]
    exact first
  · intro page final
    rw [List.mem_toFinset]
    apply picks_mem picks (i := historicalTarget normalized.nativePages.length - 1) (by omega)
    rw [List.getLast?_eq_getElem?] at final
    have end_ : historicalPosition normalized.nativePages.length
        (historicalTarget normalized.nativePages.length - 1) =
          normalized.nativePages.length - 1 := by
      unfold historicalPosition
      split
      next single =>
        -- a sample of one page is taken only of one page
        simp only [historicalTarget, clamp, legacyMaxSummaryClaims] at single
        omega
      next several => exact spaced_last (by omega)
    rw [end_]
    exact final

/-- The position that an addition takes among the unused pages. -/
def additionPosition (unused additional index : Nat) : Nat :=
  if additional ≤ 1 then unused / 2 else spaced additional unused index

theorem additionPosition_lt {unused additional index : Nat} (fits : additional ≤ unused)
    (inside : index < additional) : additionPosition unused additional index < unused := by
  unfold additionPosition
  split
  · omega
  · exact spaced_inside (by omega) fits inside

theorem additionPosition_injective {unused additional : Nat} (fits : additional ≤ unused) :
    ∀ i < additional, ∀ j < additional,
      additionPosition unused additional i = additionPosition unused additional j → i = j := by
  intro i hi j hj same
  unfold additionPosition at same
  split at same
  · omega
  · exact spaced_injective (by omega) fits same

theorem spreadAdditions_spec {unused : List Nat} {additional : Nat} {selected : Finset Nat}
    (distinct : unused.Nodup) (fresh : ∀ page ∈ unused, page ∉ selected)
    (fits : additional ≤ unused.length) :
    ∃ result, spreadAdditions unused additional selected = .ok result ∧ selected ⊆ result ∧
      result.card = selected.card + additional ∧
      ∀ page ∈ result, page ∈ selected ∨ page ∈ unused := by
  obtain ⟨picked, picks⟩ := @picks_exist unused _ _ fun i => @additionPosition_lt _ _ i fits
  have nodup := card_of_picks distinct picks (additionPosition_injective fits)
  have long : picked.length = additional := by simpa using picks.length_eq.symm
  have inside := picks_subset picks
  refine ⟨selected ∪ picked.toFinset, ?_, Finset.subset_union_left, ?_, ?_⟩
  · apply insertions_eq ?_ picks
    intro selected i a found
    unfold additionPosition at found
    split at found
    next single =>
      simp only [single, if_true, pure_bind, indexed_eq_ok.mpr found, ok_then]
      rfl
    next several =>
      have visible : 1 ≤ unused.length := by omega
      have pick : indexed unused (i * (unused.length - 1) / (additional - 1)) = .ok a :=
        indexed_eq_ok.mpr found
      simp only [several, if_false, minus_one visible, ok_then, pure_bind, pick]
      rfl
  · rw [Finset.card_union_of_disjoint, List.toFinset_card_of_nodup nodup, long]
    rw [Finset.disjoint_right]
    intro page mem
    exact fresh page (inside page (List.mem_toFinset.mp mem))
  · intro page mem
    rcases Finset.mem_union.mp mem with old | new
    · exact .inl old
    · exact .inr (inside page (List.mem_toFinset.mp new))

theorem nativePages_pairwise (identified : normalized.Identified) :
    normalized.nativePages.Pairwise (· < ·) :=
  identified.pages.sublist (List.filter_sublist.map _)

/-- The pages that a direct version selects: its target of native pages, among them the
historical sample. -/
theorem versionedSelection_spec (distinct : normalized.nativePages.Nodup) {version : String}
    (direct : version ∈ directAnalysisVersions) (some_page : 1 ≤ normalized.nativePages.length)
    (fits : (normalized.nativePages.length * 3 + 4) / 5 ≤ directMaxClaims) :
    ∃ historical selected, analysisSelectedPages normalized = .ok historical ∧
      versionedAnalysisSelectedPages normalized version = .ok selected ∧
      historical ⊆ selected ∧ selected.card = directTarget normalized.nativePages.length ∧
      (∀ page ∈ selected, page ∈ normalized.nativePages) ∧
      (∀ page, normalized.nativePages.head? = some page → page ∈ selected) ∧
      ∀ page, normalized.nativePages.getLast? = some page → page ∈ selected := by
  have small : normalized.nativePages.length * 3 + 4 ≤ usizeMax := by
    rw [directMaxClaims] at fits
    rw [usizeMax]
    omega
  obtain ⟨historical, sampled, size, sample, first, final⟩ :=
    analysisSelectedPages_spec distinct some_page small
  have never_shrinks := historicalTarget_le_directTarget fits
  have unused_nodup : (normalized.nativePages.filter (· ∉ historical)).Nodup := distinct.filter _
  have unused_length : (normalized.nativePages.filter (· ∉ historical)).length =
      normalized.nativePages.length - historical.card := by
    have used : (normalized.nativePages.filter (· ∈ historical)).length = historical.card := by
      rw [← List.toFinset_card_of_nodup (distinct.filter _)]
      congr 1
      ext page
      simp only [List.mem_toFinset, List.mem_filter, decide_eq_true_eq]
      exact ⟨fun both => both.2, fun mem => ⟨sample page mem, mem⟩⟩
    have split := List.length_eq_length_filter_add (l := normalized.nativePages)
      fun page => decide (page ∈ historical)
    simp only [decide_not] at split ⊢
    omega
  have enough : directTarget normalized.nativePages.length - historical.card ≤
      (normalized.nativePages.filter (· ∉ historical)).length := by
    have bounded : directTarget normalized.nativePages.length ≤ normalized.nativePages.length :=
      (Nat.min_le_left _ _).trans (Nat.min_le_left _ _)
    omega
  obtain ⟨selected, filled, kept, count, sources⟩ := spreadAdditions_spec unused_nodup
    (fun page mem => by simpa using (List.mem_filter.mp mem).2) enough
  refine ⟨historical, selected, sampled, ?_, kept, ?_, ?_, ?_, ?_⟩
  · have retaining : ¬ (version ∉ directAnalysisVersions ∧ version ≠ retentionAnalysisVersion) :=
      fun other => other.1 direct
    have additional : checkedSub (directTarget normalized.nativePages.length) historical.card =
        some (directTarget normalized.nativePages.length - historical.card) :=
      if_pos (size ▸ never_shrinks)
    simp only [versionedAnalysisSelectedPages, sampled, ok_then, if_neg retaining, if_pos direct,
      directRetentionTarget_ok some_page fits, propagate_ok, additional, okOrElse_some]
    exact filled
  · have shrink := size ▸ never_shrinks
    omega
  · intro page mem
    rcases sources page mem with old | new
    · exact sample page old
    · exact (List.mem_filter.mp new).1
  · exact fun page found => kept (first page found)
  · exact fun page found => kept (final page found)

/-- For a document of at most 853 native pages, a direct version selects its exact number of
native pages: the historical sample and with it both ends, and nothing else than additions. -/
theorem retained_selection (identified : normalized.Identified) {version : String}
    (direct : version ∈ directAnalysisVersions) (some_page : 1 ≤ normalized.nativePages.length)
    (fits : (3 * normalized.nativePages.length) ⌈/⌉ 5 ≤ directMaxClaims) :
    ∃ historical selected, analysisSelectedPages normalized = .ok historical ∧
      versionedAnalysisSelectedPages normalized version = .ok selected ∧
      (selected.sort (· ≤ ·)).Sublist normalized.nativePages ∧
      (selected.sort (· ≤ ·)).length = min (min normalized.nativePages.length
        ((3 * normalized.nativePages.length) ⌈/⌉ 5 + 16)) directMaxClaims ∧
      historical ⊆ selected ∧
      (∀ page, normalized.nativePages.head? = some page → page ∈ selected) ∧
      ∀ page, normalized.nativePages.getLast? = some page → page ∈ selected := by
  have ascending := nativePages_pairwise identified
  have ceiling : (3 * normalized.nativePages.length) ⌈/⌉ 5 =
      (normalized.nativePages.length * 3 + 4) / 5 := by
    rw [Nat.ceilDiv_eq_add_pred_div, Nat.mul_comm]
    rfl
  rw [ceiling] at fits ⊢
  obtain ⟨historical, selected, sampled, chosen, kept, count, native, ends⟩ :=
    versionedSelection_spec (ascending.imp fun less => less.ne) direct some_page fits
  refine ⟨historical, selected, sampled, chosen, ?_, ?_, kept, ends⟩
  · apply List.sublist_of_subperm_of_pairwise (r := (· ≤ ·))
    · apply List.subperm_of_subset (Finset.sort_nodup _ _)
      intro page mem
      exact native page ((Finset.mem_sort _).mp mem)
    · exact Finset.pairwise_sort _ _
    · exact ascending.imp fun less => less.le
  · rw [Finset.length_sort]
    exact count

/-- Three pages with a word each. -/
def threePages : NormalizedDocument where
  documentId := "d"
  normalizationVersion := normalizationVersion
  pages := [1, 2, 3].map fun number =>
    { pageNumber := number
      content := [⟨toString number, .text, "Terms", ⟨number, number, none, .nativeText⟩⟩]
      warnings := []
      requiresVisualProcessing := false }
  warnings := []

theorem retained_selection_of_three_pages :
    ∃ historical selected, analysisSelectedPages threePages = .ok historical ∧
      versionedAnalysisSelectedPages threePages analysisVersion = .ok selected ∧
      (selected.sort (· ≤ ·)).Sublist threePages.nativePages ∧
      (selected.sort (· ≤ ·)).length = min (min threePages.nativePages.length
        ((3 * threePages.nativePages.length) ⌈/⌉ 5 + 16)) directMaxClaims ∧
      historical ⊆ selected ∧
      (∀ page, threePages.nativePages.head? = some page → page ∈ selected) ∧
      ∀ page, threePages.nativePages.getLast? = some page → page ∈ selected :=
  retained_selection ⟨by decide, by decide⟩ (by decide) (by decide) (by decide)

end Samples

end DocumentSummarizer.Pipeline
