import DocumentSummarizer.Pipeline.DeliveryCeiling

/-! # A document that direct delivery refuses

A rent roll has one sentence on every page.  When the model answers every page with
the longest claim that it may give, the ledger reaches the ceiling long before the
claims cover the pages, and the analysis ends in a failure.
-/

namespace DocumentSummarizer.Pipeline

open Library

/-! ## A rent roll -/

def rentText : String := "Rent is due monthly."

/-- The identities of the blocks and of the chunks: a letter and a number. -/
def rentId (letter : Char) (page : Nat) : String :=
  String.singleton letter ++ toString page

def rentBlock (page : Nat) : NormalizedBlock :=
  ⟨rentId 'b' page, .text, rentText, ⟨page, page, none, .nativeText⟩⟩

def rentPage (page : Nat) : NormalizedPage :=
  ⟨page, [rentBlock page], [], false⟩

def rentRoll (pages : Nat) : NormalizedDocument where
  documentId := "d"
  normalizationVersion := normalizationVersion
  pages := (List.range' 1 pages).map rentPage
  warnings := []

def rentChunk (page : Nat) : DocumentChunk where
  chunkId := rentId 'c' page
  ordinal := page
  structureNodeId := "sn"
  text := rentText
  blockIds := [rentId 'b' page]
  sourceSpans := [⟨page, page, none, .nativeText⟩]
  warnings := []

def rentChunked (pages : Nat) : ChunkedDocument :=
  ⟨"d", chunkingVersion, (List.range' 1 pages).map rentChunk, []⟩

section RentRoll

variable {pages page : Nat}

theorem rentId_injective (letter : Char) : Function.Injective (rentId letter) :=
  fun _ _ same => Nat.repr_injective ((String.append_right_inj _).mp same)

theorem rentId_visible {letter : Char} (visible : isWhitespace letter = false) (page : Nat) :
    isBlank (rentId letter page) = false := by
  have mem : letter ∈ (rentId letter page).toList := by simp [rentId]
  exact isBlank_of_visible mem visible

theorem rentId_new {letter : Char} {first : Nat} {ids : List String}
    (before : ∀ id ∈ ids, ∃ page < first + 1, id = rentId letter page) :
    rentId letter (first + 1) ∉ ids := by
  intro mem
  obtain ⟨page, less, same⟩ := before _ mem
  exact less.ne (rentId_injective letter same).symm

theorem rentId_before {letter : Char} {first : Nat} {ids : List String}
    (before : ∀ id ∈ ids, ∃ page < first + 1, id = rentId letter page) :
    ∀ id ∈ rentId letter (first + 1) :: ids, ∃ page < first + 1 + 1, id = rentId letter page := by
  intro id mem
  rcases List.mem_cons.mp mem with rfl | old
  · exact ⟨first + 1, Nat.lt_succ_self _, rfl⟩
  · obtain ⟨page, less, same⟩ := before id old
    exact ⟨page, less.trans (Nat.lt_succ_self _), same⟩

theorem rentRoll_blocks (pages : Nat) :
    (rentRoll pages).blocks = (List.range' 1 pages).map rentBlock := by
  rw [NormalizedDocument.blocks, rentRoll, List.flatMap_map]
  exact List.map_eq_flatMap.symm

theorem rentRoll_nativePages (pages : Nat) :
    (rentRoll pages).nativePages = List.range' 1 pages := by
  have native : ∀ page, (rentPage page).hasNativeText = true := by
    intro page
    have visible : isBlank rentText = false := by decide
    simp [rentPage, rentBlock, NormalizedPage.hasNativeText, visible, SourceType.isTextual]
  rw [NormalizedDocument.nativePages, rentRoll, List.filter_eq_self.mpr]
  · rw [List.map_map]
    exact List.map_id _
  · intro page mem
    obtain ⟨number, -, rfl⟩ := List.mem_map.mp mem
    exact native number

theorem rentRoll_identified (pages : Nat) : (rentRoll pages).Identified := by
  constructor
  · rw [rentRoll, List.map_map]
    exact (List.map_id _).symm ▸ List.pairwise_lt_range'
  · rw [rentRoll_blocks, List.map_map]
    exact List.Nodup.map (rentId_injective 'b') List.nodup_range'

theorem rentRoll_findBlock (mem : page ∈ List.range' 1 pages) :
    (rentRoll pages).findBlock (rentId 'b' page) = some (rentBlock page) := by
  have block_mem : rentBlock page ∈ (rentRoll pages).blocks := by
    rw [rentRoll_blocks]
    exact List.mem_map_of_mem mem
  exact findBlock_of_identified (rentRoll_identified pages) block_mem

/-! ## Its chunks -/

theorem rentText_visible : isBlank rentText = false := by
  decide

theorem rentChunks_valid {first count : Nat} {chunkIds blockIds : List String}
    (small : first + count ≤ u32Max)
    (chunks : ∀ id ∈ chunkIds, ∃ page < first + 1, id = rentId 'c' page)
    (blocks : ∀ id ∈ blockIds, ∃ page < first + 1, id = rentId 'b' page) :
    Analysis.validateChunks chunkIds blockIds
      (((List.range' (first + 1) count).map rentChunk).zipIdx first) = .ok () := by
  induction count generalizing first chunkIds blockIds with
  | zero => rfl
  | succ count ih =>
      have ordinal : toU32 (first + 1) = some (first + 1) := if_pos (by omega)
      have spans : Analysis.validateSpans blockIds ((rentChunk (first + 1)).blockIds.zip
          (rentChunk (first + 1)).sourceSpans) = .ok (rentId 'b' (first + 1) :: blockIds) := by
        refine ok_bind (refuseIf_of_not ?_) _
        simp [rentId_visible (by decide : isWhitespace 'b' = false), rentId_new blocks,
          Analysis.validSourceSpan]
      rw [List.range'_succ, List.map_cons, List.zipIdx_cons, Analysis.validateChunks]
      refine (ok_bind (okOrElse_eq_ok.mpr ordinal) _).trans ?_
      refine (ok_bind (refuseIf_of_not ?_) _).trans ?_
      · have node : isBlank "sn" = false := by decide
        simp [rentChunk, rentId_visible (by decide : isWhitespace 'c' = false), rentText_visible,
          node, rentId_new chunks]
      exact (ok_bind spans _).trans (ih (by omega) (rentId_before chunks) (rentId_before blocks))

theorem rentChunked_valid (some_page : 1 ≤ pages) (small : pages ≤ u32Max) :
    Analysis.validateChunkedDocument (rentChunked pages) = .ok () := by
  have chunks : (rentChunked pages).chunks ≠ [] := by
    simp only [rentChunked, ne_eq, List.map_eq_nil_iff, List.range'_eq_nil_iff]
    omega
  have present : ¬ (isBlank "d" = true ∨ isBlank chunkingVersion = true) := by decide
  refine (ok_bind (refuseIf_of_not present) _).trans ?_
  refine (ok_bind (refuseIf_of_not chunks) _).trans ?_
  apply @rentChunks_valid 0 pages [] [] (by omega) <;>
    exact fun id mem => absurd mem List.not_mem_nil

theorem rentPages_valid {first count : Nat} {seen : List String} (small : first + count ≤ u32Max)
    (before : ∀ id ∈ seen, ∃ page < first + 1, id = rentId 'b' page) :
    ∃ all, boundaryPages seen (((List.range' (first + 1) count).map rentPage).zipIdx first) =
      .ok all := by
  induction count generalizing first seen with
  | zero => exact ⟨seen, rfl⟩
  | succ count ih =>
      have ordinal : toU32 (first + 1) = some (first + 1) := if_pos (by omega)
      have block : boundaryBlocks (first + 1) seen [rentBlock (first + 1)] =
          .ok (rentId 'b' (first + 1) :: seen) := by
        refine ok_bind (refuseIf_of_not ?_) _
        simp [rentBlock, rentId_visible (by decide : isWhitespace 'b' = false), rentText_visible,
          rentId_new before]
      obtain ⟨all, later⟩ := ih (by omega) (rentId_before before)
      refine ⟨all, ?_⟩
      rw [List.range'_succ, List.map_cons, List.zipIdx_cons, boundaryPages]
      refine (ok_bind (okOrElse_eq_ok.mpr ordinal) _).trans ?_
      refine (ok_bind (refuseIf_of_not (not_not.mpr rfl)) _).trans ?_
      exact (ok_bind block _).trans later

theorem rentChunk_blocks (mem : page ∈ List.range' 1 pages) :
    ((rentChunk page).blockIds.zip (rentChunk page).sourceSpans).mapM
      (fun (blockId, sourceSpan) => do
        let block ← okOrElse ((rentRoll pages).findBlock blockId)
          (invalidChunkBoundary "A chunk references an unknown normalized block")
        refuseIf (block.source ≠ sourceSpan)
          (invalidChunkBoundary "Chunk provenance must equal authoritative normalized provenance")
        return (blockId, block.text)) = .ok [(rentId 'b' page, rentText)] := by
  rw [mapM_ok_iff]
  refine .cons ?_ .nil
  refine (ok_bind (okOrElse_eq_ok.mpr (rentRoll_findBlock mem)) _).trans ?_
  exact ok_bind (refuseIf_of_not (not_not.mpr rfl)) _

theorem rentChunk_boundary (mem : page ∈ List.range' 1 pages) :
    boundaryChunk (rentRoll pages) (rentChunk page) = .ok [rentId 'b' page] := by
  refine (ok_bind (rentChunk_blocks mem) _).trans ?_
  refine (ok_bind (refuseIf_of_not ?_) _).trans rfl
  simp [joinBlocks, rentChunk]

theorem rentChunked_boundary (small : pages ≤ u32Max) :
    validateNormalizedChunkBoundary (rentRoll pages) (rentChunked pages) = .ok () := by
  obtain ⟨all, paged⟩ := @rentPages_valid 0 pages [] (by omega)
    fun id mem => absurd mem List.not_mem_nil
  have chunks : (rentChunked pages).chunks.mapM (boundaryChunk (rentRoll pages)) =
      .ok ((List.range' 1 pages).map fun page => [rentId 'b' page]) := by
    rw [mapM_ok_iff, rentChunked, List.forall₂_map_left_iff, List.forall₂_map_right_iff,
      List.forall₂_same]
    exact fun page mem => rentChunk_boundary mem
  have agrees : ¬ ("d" ≠ "d" ∨ isBlank normalizationVersion = true) := by decide
  refine (ok_bind (refuseIf_of_not agrees) _).trans ?_
  refine (ok_bind paged _).trans ?_
  refine (ok_bind chunks _).trans (refuseIf_of_not (not_not.mpr ?_))
  rw [rentRoll_blocks, List.map_map, ← List.flatMap_def]
  exact List.map_eq_flatMap.symm

end RentRoll

/-! ## The answers of the model -/

/-- As many characters as a claim may have, of four bytes each but the full stop. -/
def rentClaim : String :=
  String.ofList (List.replicate (maxDirectAnalysisClaimCharacters - 1) '𐌰' ++ ['.'])

section Runtime

variable (platform : TextPlatform) (pages : Nat)

def rentCatalog (page : Nat) : Interruptible AnalysisQuoteCatalog :=
  buildVersionedAnalysisQuoteCatalogForBlocks platform analysisVersion (rentChunk page)
    (rentRoll pages) .ascii [rentId 'b' page]

/-- Every page is answered with its first quotation and the longest claim. -/
def rentRuntime : AnalysisRuntime where
  runtimeId := "runtime"
  modelId := "model"
  admission := .ok ()
  omittedSourceUnits _ page := (rentCatalog platform pages page).map (·.omittedSourceUnits)
  inspect _ page := (rentCatalog platform pages page).map fun catalog =>
    .answered (page - 1) ⟨[page], [rentId 'b' page], 1, 1, catalog.candidates⟩
      (some ⟨[⟨"q1", rentClaim⟩]⟩)
  textLayerRisk _ := false
  validate _ := .ok ()

def rentCandidate (page : Nat) : AnalysisQuoteCandidate where
  selectionId := "q1"
  fullIdentity := quoteIdentity platform analysisVersion (rentChunk page) (rentId 'b' page) page
    rentText
  blockId := rentId 'b' page
  pageNumber := page
  exactQuote := rentText

end Runtime

section Answers

variable {platform : TextPlatform} {pages page : Nat}

theorem rentCatalog_derived (mem : page ∈ List.range' 1 pages) :
    deriveAnalysisQuoteCatalogForBlocks platform analysisVersion (rentChunk page) (rentRoll pages)
      .ascii [rentId 'b' page] = .ok ⟨[rentCandidate platform page], 0⟩ := by
  have segmented : quoteSegmentationForVersion .ascii analysisVersion rentText.toList =
      some ⟨[rentText.toList], 0⟩ := by decide +kernel
  have blocks : segmentBlocks (rentRoll pages) (fun block =>
      quoteSegmentationForVersion .ascii analysisVersion block.text.toList) 0 [rentId 'b' page] =
        .ok ([⟨rentId 'b' page, page, [rentText]⟩], 0) := by
    refine (ok_bind (okOrElse_eq_ok.mpr (rentRoll_findBlock mem)) _).trans ?_
    refine (ok_bind (okOrElse_eq_ok.mpr segmented) _).trans rfl
  have offered : offerSegment platform analysisVersion (rentChunk page) 0 ⟨[], []⟩
      ⟨rentId 'b' page, page, [rentText]⟩ =
        .ok ⟨[rentCandidate platform page], [(rentId 'b' page, rentText)]⟩ := rfl
  refine (ok_bind blocks _).trans ?_
  have round : (propagate ([0].foldlM (fun pass segmentIndex =>
      [(⟨rentId 'b' page, page, [rentText]⟩ : BlockSegments)].foldlM
        (offerSegment platform analysisVersion (rentChunk page) segmentIndex) pass) ⟨[], []⟩)) =
      .ok ⟨[rentCandidate platform page], [(rentId 'b' page, rentText)]⟩ := by
    rw [List.foldlM_cons, List.foldlM_cons, offered]
    rfl
  refine (ok_bind round _).trans ?_
  rfl

theorem rentCatalog_ok (mem : page ∈ List.range' 1 pages) :
    validateVersionedAnalysisQuoteCatalogForBlocks platform analysisVersion (rentChunk page)
        (rentRoll pages) .ascii [rentId 'b' page] [rentCandidate platform page] = .ok () ∧
      rentCatalog platform pages page = .ok ⟨[rentCandidate platform page], 0⟩ := by
  have quote : canonicalBoundedText rentText maxAnalysisQuoteCharacters = true := by
    decide +kernel
  have inside : containsText rentText.toList rentText.toList = true :=
    containsText_iff.mpr List.infix_rfl
  have valid : validateVersionedAnalysisQuoteCatalogForBlocks platform analysisVersion
      (rentChunk page) (rentRoll pages) .ascii [rentId 'b' page] [rentCandidate platform page] =
        .ok () := by
    have checked : validateCandidates platform analysisVersion (rentChunk page) (rentRoll pages)
        [rentId 'b' page] ⟨[], [], []⟩ [(rentCandidate platform page, 0)] = .ok () := by
      have selection : analysisSelectionId 0 = some "q1" := rfl
      refine (ok_bind (okOrElse_eq_ok.mpr (rentRoll_findBlock mem)) _).trans ?_
      refine (ok_bind (okOrElse_eq_ok.mpr selection) _).trans ?_
      refine (ok_bind (refuseIf_of_not ?_) _).trans rfl
      simp [rentCandidate, rentBlock, quote, inside]
    refine (ok_bind (rentCatalog_derived mem) _).trans ?_
    refine (ok_bind (congrArg propagate (refuseIf_of_not (not_not.mpr rfl))) _).trans ?_
    exact congrArg propagate checked
  refine ⟨valid, (ok_bind (rentCatalog_derived mem) _).trans ?_⟩
  exact (ok_bind valid _).trans rfl

def rentEvidence (platform : TextPlatform) (page index : Nat) : EvidenceItem where
  evidenceId := deterministicEvidenceId platform analysisVersion (rentChunk page) "d" index
    (rentId 'b' page) rentClaim rentText
  chunkId := rentId 'c' page
  blockId := rentId 'b' page
  claimText := rentClaim
  exactQuote := rentText
  sourceSpan := ⟨page, page, none, .nativeText⟩

theorem rentClaim_bounded :
    canonicalBoundedText rentClaim maxDirectAnalysisClaimCharacters = true := by
  rw [canonicalBoundedText_iff, rentClaim, String.toList_ofList]
  refine ⟨⟨⟨'𐌰', ?_, by decide⟩, ⟨'.', List.getLast?_concat, by decide⟩⟩, ?_⟩
  · rw [maxDirectAnalysisClaimCharacters, List.replicate_succ]
    rfl
  · rw [List.length_append, List.length_replicate, maxDirectAnalysisClaimCharacters]
    exact Nat.le_refl _

theorem rentResponse_ok (mem : page ∈ List.range' 1 pages) {index : Nat} (small : index ≤ usizeMax) :
    parseEvidenceResponse platform analysisVersion (rentChunk page) (rentRoll pages) .ascii "d"
      (some ⟨[⟨"q1", rentClaim⟩]⟩)
      ⟨[page], [rentId 'b' page], 1, 1, [rentCandidate platform page]⟩ index =
        .ok [rentEvidence platform page index] := by
  have one : propagate (refuseIf ((1 : Nat) ≠ 1 ∨ (1 : Nat) ≠ 1 ∨ [page].length ≠ 1 ∨
      (∃ candidate ∈ [rentCandidate platform page], candidate.pageNumber ∉ [page]) ∨
      [rentCandidate platform page].length < 1 ∨
      [(⟨"q1", rentClaim⟩ : RawEvidenceItem)].length < 1 ∨
      1 < [(⟨"q1", rentClaim⟩ : RawEvidenceItem)].length)
      (invalidEvidenceResponse
        "Each native-text page request must return exactly one evidence item from that page" true))
      = .ok () := by
    refine congrArg propagate (refuseIf_of_not ?_)
    simp [rentCandidate]
  have item : materializeItem platform analysisVersion (rentChunk page) (rentRoll pages) "d"
      [rentCandidate platform page] index ⟨[], ∅, [], []⟩ (⟨"q1", rentClaim⟩, 0) =
        .ok ⟨["q1"], {page}, [(rentEvidence platform page index).evidenceId],
          [rentEvidence platform page index]⟩ := by
    have position : checkedAdd index 0 = some index := if_pos small
    refine (ok_bind (congrArg propagate (refuseIf_of_not ?_)) _).trans ?_
    · simp [rentClaim_bounded]
    refine (ok_bind (okOrElse_eq_ok.mpr rfl) _).trans ?_
    refine (ok_bind (okOrElse_eq_ok.mpr (rentRoll_findBlock mem)) _).trans ?_
    refine (ok_bind (okOrElse_eq_ok.mpr position) _).trans ?_
    exact (ok_bind (congrArg propagate (refuseIf_of_not List.not_mem_nil)) _).trans rfl
  refine (ok_bind one _).trans ?_
  refine (ok_bind (rentCatalog_ok mem).1 _).trans ?_
  have items : [((⟨"q1", rentClaim⟩ : RawEvidenceItem), 0)].foldlM
      (materializeItem platform analysisVersion (rentChunk page) (rentRoll pages) "d"
        [rentCandidate platform page] index) ⟨[], ∅, [], []⟩ =
      .ok ⟨["q1"], {page}, [(rentEvidence platform page index).evidenceId],
          [rentEvidence platform page index]⟩ := by
    rw [List.foldlM_cons, item]
    rfl
  refine (ok_bind items _).trans ?_
  rfl

end Answers

/-! ## The bytes of a claim -/

/-- The bytes of the longest claim. -/
def rentBytes : Nat := 6141

theorem utf8ByteSize_rentClaim : rentClaim.utf8ByteSize = rentBytes := by
  rw [rentClaim, utf8ByteSize_ofList, byteLength_append, byteLength, List.map_replicate,
    List.sum_replicate]
  rfl

section Bytes

variable {platform : TextPlatform} {page index : Nat} {items : List EvidenceItem}

theorem citationLabel_page (page : Nat) :
    citationLabel [⟨page, page, none, .nativeText⟩] = "[" ++ ("p. " ++ toString page) ++ "]" := by
  show "[" ++ "; ".intercalate [spanLabel ⟨page, page, none, .nativeText⟩] ++ "]" = _
  rw [spanLabel, if_pos rfl]
  rfl

theorem utf8ByteSize_rentLine (small : page < 1000) :
    (deliveryLine (rentEvidence platform page index)).utf8ByteSize ≤ rentBytes + 9 := by
  have digits : (Nat.repr page).length ≤ 3 := (Nat.length_repr_le_iff (by decide)).mpr small
  have label : (citationLabel [⟨page, page, none, .nativeText⟩]).utf8ByteSize ≤ 8 := by
    rw [citationLabel_page, String.utf8ByteSize_append, String.utf8ByteSize_append,
      String.utf8ByteSize_append, utf8ByteSize_toString]
    have parts : "[".utf8ByteSize = 1 ∧ "p. ".utf8ByteSize = 3 ∧ "]".utf8ByteSize = 1 :=
      ⟨rfl, rfl, rfl⟩
    omega
  rw [deliveryLine, String.utf8ByteSize_append, String.utf8ByteSize_append]
  have space : " ".utf8ByteSize = 1 := rfl
  have claim : (rentEvidence platform page index).claimText.utf8ByteSize = rentBytes :=
    utf8ByteSize_rentClaim
  have span : (rentEvidence platform page index).sourceSpan = ⟨page, page, none, .nativeText⟩ := rfl
  rw [claim, span, space]
  omega

/-- A ledger of the longest claims takes at least their bytes and the gaps between them. -/
theorem ledgerBytes_rent (answered : ∀ item ∈ items, item.claimText = rentClaim) :
    rentBytes * items.length + 2 * (items.length - 1) ≤ ledgerBytes items := by
  have lines : rentBytes * items.length ≤ ((items.map deliveryLine).map String.utf8ByteSize).sum := by
    induction items with
    | nil => exact Nat.zero_le _
    | cons item rest ih =>
        have later := ih fun other mem => answered other (List.mem_cons_of_mem _ mem)
        have first : rentBytes ≤ (deliveryLine item).utf8ByteSize := by
          rw [deliveryLine, String.utf8ByteSize_append, String.utf8ByteSize_append,
            answered item List.mem_cons_self, utf8ByteSize_rentClaim]
          omega
        simp only [List.map_cons, List.sum_cons, List.length_cons]
        rw [Nat.mul_succ]
        omega
  rw [ledgerBytes, linesBytes, List.length_map]
  omega

end Bytes

/-! ## The refusal -/

/-- The claims that fit under the ceiling. -/
def rentCapacity : Nat := 170

section Refusal

variable {platform : TextPlatform} {pages target : Nat} {pass : AnalysisPass}

/-- A pass over a rent roll: a ledger of the longest claims. -/
structure RentPass (platform : TextPlatform) (pages : Nat) (pass : AnalysisPass) : Prop where
  ledger : Ledger platform (rentChunked pages) (some .connect) pass
  answered : ∀ item ∈ pass.analyzed.evidence, item.claimText = rentClaim

theorem RentPass.count_le (h : RentPass platform pages pass) : pass.count ≤ rentCapacity := by
  have bytes := ledgerBytes_rent h.answered
  have ceiling := h.ledger.ceiling .connect rfl
  rw [h.ledger.projected] at ceiling
  rw [h.ledger.count]
  simp only [rentBytes, rentCapacity, SummaryDeliveryPolicy.connect, maxDeliverySummaryTextBytes]
    at bytes ceiling ⊢
  omega

theorem RentPass.uncovered (h : RentPass platform pages pass) (long : rentCapacity * 2 < pages) :
    deliveryPageCoverageSatisfied pass.retainedPages pass.analyzed.omissions (rentRoll pages) =
      false := by
  have few : pass.retainedPages.card ≤ rentCapacity := by
    refine (List.toFinset_card_le _).trans ?_
    rw [List.length_map, ← h.ledger.count]
    exact h.count_le
  have native : (rentRoll pages).nativePages.toFinset.card = pages := by
    rw [rentRoll_nativePages, List.toFinset_card_of_nodup List.nodup_range', List.length_range']
  have half : decide ((rentRoll pages).nativePages.toFinset.card ≤ pass.retainedPages.card * 2) =
      false := by
    rw [native, decide_eq_false_iff_not]
    omega
  simp only [deliveryPageCoverageSatisfied, half, Bool.and_false, Bool.false_and, ite_self]

def rentRefusal : PipelineFailure :=
  summaryDeliveryLimitExceeded .analyze
    "The delivery byte ceiling was reached before the retained prefix satisfied page coverage"

theorem stopForDelivery_rent (h : RentPass platform pages pass) (some_claim : pass.count ≠ 0)
    (long : rentCapacity * 2 < pages) :
    stopForDelivery (rentRoll pages) pass = .error rentRefusal := by
  refine (ok_bind (refuseIf_of_not some_claim) _).trans ?_
  rw [h.uncovered long]
  rfl

theorem materialize_rent {page : Nat} (h : RentPass platform pages pass)
    (mem : page ∈ List.range' 1 pages) : ∃ index,
      materialize platform .ascii (rentChunked pages) (rentRoll pages) pass (page - 1)
        ⟨[page], [rentId 'b' page], 1, 1, [rentCandidate platform page]⟩
        (some ⟨[⟨"q1", rentClaim⟩]⟩) = .ok [rentEvidence platform page index] := by
  obtain ⟨lower, upper⟩ := List.mem_range'_1.mp mem
  have own : (rentChunked pages).chunks[page - 1]? = some (rentChunk page) := by
    have number : 1 + 1 * (page - 1) = page := by omega
    rw [rentChunked, List.getElem?_map, List.getElem?_range' (by omega), Option.map_some, number]
  have same := h.ledger.numbered.length_eq
  have inside : page - 1 < pass.analyzed.chunks.length := by
    rw [← same, rentChunked, List.length_map, List.length_range']
    omega
  have slot := List.getElem?_eq_getElem inside
  have few : pass.analyzed.chunks[page - 1].evidence.length ≤ usizeMax := by
    have part : pass.analyzed.chunks[page - 1].evidence.length ≤ pass.analyzed.evidence.length :=
      (List.sublist_flatten_of_mem (List.mem_map_of_mem (List.getElem_mem inside))).length_le
    have count := h.count_le
    rw [h.ledger.count, rentCapacity] at count
    rw [usizeMax]
    omega
  refine ⟨pass.analyzed.chunks[page - 1].evidence.length, ?_⟩
  refine (ok_bind (indexed_eq_ok.mpr own) _).trans ?_
  refine (ok_bind (indexed_eq_ok.mpr slot) _).trans ?_
  exact rentResponse_ok mem few

theorem RentPass.retain (h : RentPass platform pages pass) {page index projected : Nat}
    (made : materialize platform .ascii (rentChunked pages) (rentRoll pages) pass (page - 1)
      ⟨[page], [rentId 'b' page], 1, 1, [rentCandidate platform page]⟩
      (some ⟨[⟨"q1", rentClaim⟩]⟩) = .ok [rentEvidence platform page index])
    (grown : pass.projectedWith (deliveryLine (rentEvidence platform page index)) = some projected)
    (within : projected ≤ maxDeliverySummaryTextBytes) :
    RentPass platform pages
      (pass.retain (page - 1) [rentEvidence platform page index] projected) := by
  obtain ⟨chunk, analysis, item, own, slot, only, id⟩ := materialize_ok made
  obtain rfl := List.singleton_inj.mp only
  constructor
  · apply h.ledger.retain own slot id grown
    intro policy mem
    obtain rfl := Option.some.inj mem
    exact within
  · intro item mem
    have more : (pass.retain (page - 1) [rentEvidence platform page index]
        projected).analyzed.evidence.Perm
          (pass.analyzed.evidence ++ [rentEvidence platform page index]) := evidence_modify slot _
    rcases List.mem_append.mp (more.mem_iff.mp mem) with old | new
    · exact h.answered item old
    · rw [List.mem_singleton.mp new]
      rfl

theorem projectedWith_rent (h : RentPass platform pages pass) {page index : Nat}
    (small : page < 1000) : ∃ projected,
      pass.projectedWith (deliveryLine (rentEvidence platform page index)) = some projected ∧
      (pass.count = 0 → projected ≤ maxDeliverySummaryTextBytes) := by
  have line := @utf8ByteSize_rentLine platform page index small
  have ceiling := h.ledger.ceiling .connect rfl
  simp only [SummaryDeliveryPolicy.connect, maxDeliverySummaryTextBytes, rentBytes]
    at ceiling line ⊢
  have gap : checkedAdd pass.projectedDeliveryBytes (if 0 < pass.count then 2 else 0) =
      some (pass.projectedDeliveryBytes + if 0 < pass.count then 2 else 0) := by
    refine if_pos ?_
    rw [usizeMax]
    split <;> omega
  have sum : pass.projectedWith (deliveryLine (rentEvidence platform page index)) =
      some ((pass.projectedDeliveryBytes + if 0 < pass.count then 2 else 0) +
        (deliveryLine (rentEvidence platform page index)).utf8ByteSize) := by
    rw [AnalysisPass.projectedWith, gap, Option.bind_some]
    refine if_pos ?_
    rw [usizeMax]
    split <;> omega
  refine ⟨_, sum, ?_⟩
  intro none
  have nothing : pass.projectedDeliveryBytes = 0 := by
    have no_item := h.ledger.count.symm.trans none
    rw [h.ledger.projected, List.eq_nil_of_length_eq_zero no_item]
    rfl
  rw [if_neg (by omega), nothing]
  omega

/-- The loop over the pages of a long rent roll ends in the refusal. -/
theorem analyzePages_rent {plan : List Nat} (h : RentPass platform pages pass)
    (native : ∀ page ∈ plan, page ∈ List.range' 1 pages)
    (enough : rentCapacity < pass.count + plan.length) (aimed : rentCapacity < target)
    (long : rentCapacity * 2 < pages) (small : pages < 1000) :
    analyzePages platform .ascii (rentRuntime platform pages) (rentChunked pages) (rentRoll pages)
      (some .connect) target plan pass = .error (.failure rentRefusal) := by
  induction plan generalizing pass with
  | nil => exact absurd h.count_le enough.not_ge
  | cons page rest ih =>
      have mem := native page List.mem_cons_self
      obtain ⟨lower, upper⟩ := List.mem_range'_1.mp mem
      have count := h.count_le
      have below : ¬ pass.count = target := by omega
      let noted : AnalysisPass := { pass with analyzed := { pass.analyzed with
        inspectedPages := pass.analyzed.inspectedPages ++ [page] } }
      have units : (rentRuntime platform pages).omittedSourceUnits pass page = .ok 0 := by
        show (rentCatalog platform pages page).map _ = _
        rw [(rentCatalog_ok mem).2]
        rfl
      have seen : propagate (pass.inspected page 0) = .ok noted := rfl
      have inspected : (rentRuntime platform pages).inspect noted page =
          .ok (.answered (page - 1) ⟨[page], [rentId 'b' page], 1, 1,
            [rentCandidate platform page]⟩ (some ⟨[⟨"q1", rentClaim⟩]⟩)) := by
        show (rentCatalog platform pages page).map _ = _
        rw [(rentCatalog_ok mem).2]
        rfl
      have keeps : RentPass platform pages noted :=
        ⟨h.ledger.of_same rfl rfl rfl rfl, h.answered⟩
      obtain ⟨index, made⟩ := materialize_rent keeps mem
      obtain ⟨projected, grown, first⟩ :=
        @projectedWith_rent platform pages noted keeps page index (by omega)
      unfold analyzePages
      rw [if_neg below]
      refine (ok_bind units _).trans ?_
      refine (ok_bind seen _).trans ?_
      refine (ok_bind inspected _).trans ?_
      refine (ok_bind made _).trans ?_
      refine (ok_bind (okOrElse_eq_ok.mpr rfl) _).trans ?_
      refine (ok_bind (okOrElse_eq_ok.mpr grown) _).trans ?_
      split
      next beyond =>
        have some_claim : noted.count ≠ 0 := by
          intro none
          have within := first none
          simp [SummaryDeliveryPolicy.connect] at beyond
          omega
        rw [stopForDelivery_rent keeps some_claim long]
        rfl
      next inside =>
        have within : projected ≤ maxDeliverySummaryTextBytes := by
          simpa [SummaryDeliveryPolicy.connect] using inside
        apply ih (keeps.retain made grown within)
          fun other other_mem => native other (List.mem_cons_of_mem _ other_mem)
        rw [List.length_cons] at enough
        show rentCapacity < pass.count + 1 + rest.length
        omega

theorem rentPlan (some_page : 1 ≤ pages) (fits : (pages * 3 + 4) / 5 ≤ directMaxClaims) :
    ∃ plan, versionedPlan (rentRoll pages) analysisVersion = .ok (plan, directTarget pages) ∧
      plan.length = pages ∧ ∀ page ∈ plan, page ∈ List.range' 1 pages := by
  have count : (rentRoll pages).nativePages.length = pages := by
    rw [rentRoll_nativePages, List.length_range']
  have direct : analysisVersion ∈ directAnalysisVersions := by decide
  obtain ⟨_, selected, -, chosen, -, card, -⟩ := @versionedSelection_spec (rentRoll pages)
    (rentRoll_nativePages pages ▸ List.nodup_range') _ direct (count.symm ▸ some_page)
    (count.symm ▸ fits)
  refine ⟨_, (ok_bind chosen _).trans (by rw [card, count]; rfl), ?_, ?_⟩
  · have split := List.length_eq_length_filter_add (l := (rentRoll pages).nativePages)
      fun page => decide (page ∈ selected)
    simp only [List.length_append, decide_not] at split ⊢
    rw [← split, count]
  · intro page mem
    rw [← rentRoll_nativePages]
    rcases List.mem_append.mp mem with old | new
    · exact List.mem_of_mem_filter old
    · exact List.mem_of_mem_filter new

theorem analyze_rent (platform : TextPlatform) (long : rentCapacity * 2 < pages)
    (fits : (pages * 3 + 4) / 5 ≤ directMaxClaims) :
    analyze platform .ascii (rentRuntime platform pages) (rentChunked pages) (rentRoll pages)
      (some .connect) = .error (.failure rentRefusal) := by
  rw [rentCapacity] at long
  rw [directMaxClaims] at fits
  have small : pages ≤ u32Max := by
    rw [u32Max]
    omega
  have aimed : rentCapacity < directTarget pages := by
    rw [rentCapacity, directTarget, directMaxClaims]
    omega
  obtain ⟨plan, planned, length, native⟩ := @rentPlan pages (by omega) fits
  have start : RentPass platform pages
      (initialPass (rentRuntime platform pages) (rentChunked pages)) := by
    refine ⟨Ledger.initial, ?_⟩
    intro item mem
    simp [initialPass, AnalyzedDocument.evidence, List.flatMap_map] at mem
  have run := analyzePages_rent start native
    (by rw [length, rentCapacity]; omega) aimed long (by omega)
  have loop : analyzeLoop platform .ascii (rentRuntime platform pages) (rentChunked pages)
      (rentRoll pages) (some .connect) = .error (.failure rentRefusal) := by
    have valid := congrArg propagate (@rentChunked_valid pages (by omega) small)
    have boundary := congrArg propagate (@rentChunked_boundary pages small)
    refine (ok_bind valid _).trans ?_
    refine (ok_bind boundary _).trans ?_
    refine (ok_bind planned _).trans ?_
    dsimp only
    rw [run]
    rfl
  rw [analyze, loop]
  rfl

/-- On four hundred pages, as a function of the digests. -/
theorem direct_delivery_refused_of_rent_roll :
    (fun platform => analyze platform .ascii (rentRuntime platform 400) (rentChunked 400)
      (rentRoll 400) (some .connect)) = fun _ => .error (.failure (stageFailure .analyze
        "SUMMARY_DELIVERY_LIMIT_EXCEEDED" ("The delivery byte ceiling was reached before the " ++
          "retained prefix satisfied page coverage") false)) := by
  funext platform
  exact analyze_rent platform (by decide) (by decide)

end Refusal

end DocumentSummarizer.Pipeline
