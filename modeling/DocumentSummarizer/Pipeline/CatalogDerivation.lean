import DocumentSummarizer.Pipeline.CatalogSources
import DocumentSummarizer.Pipeline.ContractIdentities

/-! # Deriving a catalog

The derivation keeps the first occurrence of every quotation that the blocks give
in rounds, and its place in the catalog is its identity in the request.
-/

namespace DocumentSummarizer.Pipeline

open Library

/-! ## Selection identities -/

/-- The last ordinal whose identity the catalog admits. -/
def maxAnalysisSelections : Nat := 9999999

def selectionIdAt (index : Nat) : String :=
  "q" ++ toString (index + 1)

theorem utf8ByteSize_toString (n : Nat) : (toString n).utf8ByteSize = (Nat.repr n).length := by
  have digits : ∀ c ∈ (Nat.repr n).toList, c.utf8Size = 1 := by
    intro c mem
    rw [Nat.toList_repr] at mem
    have digit := Nat.isDigit_of_mem_toDigits (by decide) (by decide) mem
    simp only [Char.isDigit, Bool.and_eq_true, decide_eq_true_eq] at digit
    exact Char.utf8Size_eq_one_iff.mpr (UInt32.le_trans digit.2 (by decide))
  show (Nat.repr n).utf8ByteSize = _
  rw [utf8ByteSize_eq, byteLength, List.map_congr_left digits, ← String.length_toList]
  simp

theorem analysisSelectionId_eq {index : Nat} (small : index < maxAnalysisSelections) :
    analysisSelectionId index = some (selectionIdAt index) := by
  rw [maxAnalysisSelections] at small
  have ordinal : checkedAdd index 1 = some (index + 1) := by
    rw [checkedAdd, if_pos]
    rw [usizeMax]
    omega
  have short : (Nat.repr (index + 1)).length ≤ 7 :=
    (Nat.length_repr_le_iff (by decide)).mpr (by omega)
  have size : ("q" ++ toString (index + 1)).utf8ByteSize ≤ maxAnalysisSelectionIdCharacters := by
    rw [String.utf8ByteSize_append, utf8ByteSize_toString, maxAnalysisSelectionIdCharacters]
    have letter : "q".utf8ByteSize = 1 := rfl
    omega
  simp only [analysisSelectionId, ordinal, Option.bind_some, size, if_true]
  rfl

theorem selectionIdAt_injective {index index' : Nat}
    (h : selectionIdAt index = selectionIdAt index') : index = index' := by
  have ordinals := Nat.repr_injective ((String.append_right_inj _).mp h)
  omega

/-! ## Rounds -/

/-- The page of a block, by its identity. -/
def NormalizedDocument.blockPage (normalized : NormalizedDocument) (blockId : String) : Nat :=
  ((normalized.findBlock blockId).map (·.source.pageStart)).getD 0

/-- The queues of the rounds: the segments under the identities of their blocks. -/
def queues (blocks : List BlockSegments) : List (String × List String) :=
  blocks.map fun block => (block.blockId, block.segments)

section Rounds

variable (platform : TextPlatform) (version : String) (chunk : DocumentChunk)
  (normalized : NormalizedDocument)

/-- The candidate of a block's quotation at its place in the catalog. -/
def candidateOf (quotation : (String × String) × Nat) : AnalysisQuoteCandidate where
  selectionId := selectionIdAt quotation.2
  fullIdentity := quoteIdentity platform version chunk quotation.1.1
    (normalized.blockPage quotation.1.1) quotation.1.2
  blockId := quotation.1.1
  pageNumber := normalized.blockPage quotation.1.1
  exactQuote := quotation.1.2

def candidatesFrom (first : Nat) (quotations : List (String × String)) :
    List AnalysisQuoteCandidate :=
  (quotations.zipIdx first).map (candidateOf platform version chunk normalized)

/-- What a pass does with one quotation that it is given. -/
def offerQuotation (pass : CatalogPass) (quotation : String × String) :
    Except PipelineFailure CatalogPass :=
  offerSegment platform version chunk 0 pass
    ⟨quotation.1, normalized.blockPage quotation.1, [quotation.2]⟩

variable {platform version chunk normalized} {blocks : List BlockSegments} {pass : CatalogPass}

theorem offerSegment_eq {block : BlockSegments} (segmentIndex : Nat)
    (page : block.pageNumber = normalized.blockPage block.blockId) :
    offerSegment platform version chunk segmentIndex pass block =
      (turn segmentIndex (queues [block])).foldlM
        (offerQuotation platform version chunk normalized) pass := by
  cases found : block.segments[segmentIndex]? with
  | none =>
      simp [offerSegment, queues, turn, found]
      rfl
  | some exactQuote => simp [offerSegment, queues, turn, found, offerQuotation, page]

theorem round_eq (segmentIndex : Nat)
    (pages : ∀ block ∈ blocks, block.pageNumber = normalized.blockPage block.blockId) :
    blocks.foldlM (offerSegment platform version chunk segmentIndex) pass =
      (turn segmentIndex (queues blocks)).foldlM
        (offerQuotation platform version chunk normalized) pass := by
  induction blocks generalizing pass with
  | nil => rfl
  | cons block rest ih =>
      have split : turn segmentIndex (queues (block :: rest)) =
          turn segmentIndex (queues [block]) ++ turn segmentIndex (queues rest) := by
        rw [turn, turn, turn, ← List.filterMap_append]
        rfl
      rw [List.foldlM_cons, offerSegment_eq segmentIndex (pages block List.mem_cons_self), split,
        List.foldlM_append]
      congr 1
      funext next
      exact ih fun block mem => pages block (List.mem_cons_of_mem _ mem)

theorem rounds_eq (indices : List Nat)
    (pages : ∀ block ∈ blocks, block.pageNumber = normalized.blockPage block.blockId) :
    indices.foldlM (fun pass segmentIndex =>
      blocks.foldlM (offerSegment platform version chunk segmentIndex) pass) pass =
      (indices.flatMap fun segmentIndex => turn segmentIndex (queues blocks)).foldlM
        (offerQuotation platform version chunk normalized) pass := by
  induction indices generalizing pass with
  | nil => rfl
  | cons first rest ih =>
      rw [List.foldlM_cons, round_eq first pages, List.flatMap_cons, List.foldlM_append]
      congr 1
      funext next
      exact ih

theorem offerQuotations_ok {quotations seen : List (String × String)}
    {candidates : List AnalysisQuoteCandidate}
    (small : candidates.length + quotations.length ≤ maxAnalysisSelections) :
    ∃ later, quotations.foldlM (offerQuotation platform version chunk normalized)
      ⟨candidates, seen⟩ = .ok ⟨candidates ++ candidatesFrom platform version chunk normalized
        candidates.length (firstsAfter seen quotations), later⟩ := by
  induction quotations generalizing candidates seen with
  | nil => exact ⟨seen, by simp [firstsAfter, candidatesFrom]; rfl⟩
  | cons quotation rest ih =>
      rw [List.length_cons] at small
      rw [List.foldlM_cons, firstsAfter]
      by_cases old : quotation ∈ seen
      · obtain ⟨later, done⟩ := @ih seen candidates (by omega)
        refine ⟨later, ?_⟩
        rw [if_pos old, ← done]
        simp [offerQuotation, offerSegment, old]
      · obtain ⟨later, done⟩ := @ih (quotation :: seen) (candidates ++
          [candidateOf platform version chunk normalized (quotation, candidates.length)])
          (by rw [List.length_append, List.length_singleton]; omega)
        refine ⟨later, ?_⟩
        have here : offerQuotation platform version chunk normalized ⟨candidates, seen⟩ quotation =
            .ok ⟨candidates ++
              [candidateOf platform version chunk normalized (quotation, candidates.length)],
              quotation :: seen⟩ := by
          have identity := @analysisSelectionId_eq candidates.length (by omega)
          simp [offerQuotation, offerSegment, old, identity, okOrElse_some, candidateOf]
        rw [here, if_neg old]
        refine done.trans ?_
        simp [candidatesFrom, List.zipIdx_cons]

end Rounds

end DocumentSummarizer.Pipeline
