import DocumentSummarizer.Pipeline.CatalogDerivation

/-! # Quotation catalogs validate

Over an admitted scope every version derives a catalog, and the catalog passes
its own validation.  What a response selects from it is evidence with the
quotation, the block and the pages of a candidate.
-/

namespace DocumentSummarizer.Pipeline

open Library

section Reading

variable {normalized : NormalizedDocument} {chunked : ChunkedDocument} {chunk : DocumentChunk}
  {allowedBlockIds : List String}

theorem boundaryBlocks_visible {pageNumber : Nat} {seen all : List String}
    {blocks : List NormalizedBlock} (h : boundaryBlocks pageNumber seen blocks = .ok all) :
    ∀ block ∈ blocks, isBlank block.text = false := by
  induction blocks generalizing seen with
  | nil => exact fun _ mem => absurd mem List.not_mem_nil
  | cons block rest ih =>
      simp only [boundaryBlocks, peel_ok, refuseIf_eq_ok, not_or] at h
      obtain ⟨_, shown, later⟩ := h
      intro other mem
      rcases List.mem_cons.mp mem with rfl | further
      · simpa using shown.2.1
      · exact ih later other further

theorem boundaryPages_visible {pages : List NormalizedPage} {first : Nat} {seen all : List String}
    (h : boundaryPages seen (pages.zipIdx first) = .ok all) :
    ∀ block ∈ pages.flatMap (·.content), isBlank block.text = false := by
  induction pages generalizing first seen with
  | nil => exact fun _ mem => absurd mem List.not_mem_nil
  | cons page rest ih =>
      simp only [List.zipIdx_cons, boundaryPages, peel_ok] at h
      obtain ⟨_, -, _, -, inner, blocks, later⟩ := h
      intro block mem
      rw [List.flatMap_cons, List.mem_append] at mem
      rcases mem with here | further
      · exact boundaryBlocks_visible blocks block here
      · exact ih later block further

theorem visible_of_boundary (h : validateNormalizedChunkBoundary normalized chunked = .ok ())
    {blockId : String} {block : NormalizedBlock} (found : normalized.findBlock blockId = some block) :
    blank block.text.toList = false := by
  simp only [validateNormalizedChunkBoundary, peel_ok] at h
  obtain ⟨_, -, all, pages, -⟩ := h
  exact boundaryPages_visible pages block (findBlock_spec found).1

/-- What is read of an allowed block: its segments, and the units that are omitted. -/
def Reads (tables : SentenceTables) (version : String) (normalized : NormalizedDocument)
    (blockId : String) (read : BlockSegments × Nat) : Prop :=
  ∃ block result, normalized.findBlock blockId = some block ∧
    quoteSegmentationForVersion tables version block.text.toList = some result ∧
    Segmented version block.text.toList result ∧
    read = (⟨blockId, block.source.pageStart, result.segments.map String.ofList⟩,
      result.omittedSourceUnits)

variable {tables : SentenceTables} {version : String} {reads : List (BlockSegments × Nat)}

theorem Reads.size {blockId : String} {read : BlockSegments × Nat}
    (h : Reads tables version normalized blockId read) :
    read.1.segments.length + read.2 ≤ normalized.blockBytes blockId := by
  obtain ⟨block, result, found, -, segmented, rfl⟩ := h
  rw [NormalizedDocument.blockBytes, found]
  simpa using segmented.few

theorem reads_size (h : List.Forall₂ (Reads tables version normalized) allowedBlockIds reads) :
    (reads.map fun read => read.1.segments.length).sum + (reads.map (·.2)).sum ≤
      (allowedBlockIds.map normalized.blockBytes).sum := by
  induction h with
  | nil => exact Nat.le_refl _
  | cons first _ ih =>
      have := first.size
      simp only [List.map_cons, List.sum_cons]
      omega

theorem segmentBlocks_ok {omitted : Nat}
    (known : ∀ blockId ∈ allowedBlockIds, ∃ block, normalized.findBlock blockId = some block)
    (small : omitted + (allowedBlockIds.map normalized.blockBytes).sum ≤ usizeMax) :
    ∃ reads, List.Forall₂ (Reads tables version normalized) allowedBlockIds reads ∧
      segmentBlocks normalized
        (fun block => quoteSegmentationForVersion tables version block.text.toList) omitted
        allowedBlockIds = .ok (reads.map (·.1), omitted + (reads.map (·.2)).sum) := by
  induction allowedBlockIds generalizing omitted with
  | nil => exact ⟨[], .nil, rfl⟩
  | cons blockId rest ih =>
      obtain ⟨block, found⟩ := known blockId List.mem_cons_self
      obtain ⟨result, cut, segmented⟩ :=
        quoteSegmentation_segmented tables version block.text.toList
      have here : Reads tables version normalized blockId _ :=
        ⟨block, result, found, cut, segmented, rfl⟩
      have size := here.size
      simp only [List.map_cons, List.sum_cons] at small
      obtain ⟨reads, others, done⟩ :=
        @ih (omitted + result.omittedSourceUnits)
          (fun other mem => known other (List.mem_cons_of_mem _ mem)) (by omega)
      have added : checkedAdd omitted result.omittedSourceUnits =
          some (omitted + result.omittedSourceUnits) := by
        rw [checkedAdd, if_pos]
        omega
      refine ⟨_, .cons here others, ?_⟩
      simp only [segmentBlocks, found, cut, added, okOrElse_some, ok_then, done]
      simp [Nat.add_assoc]
      rfl

/-- What was read of an admitted scope is not all empty, but for omitted units. -/
theorem reads_offer
    (boundary : validateNormalizedChunkBoundary normalized chunked = .ok ())
    (h : List.Forall₂ (Reads tables version normalized) allowedBlockIds reads)
    (some_block : allowedBlockIds ≠ []) (empty : ∀ read ∈ reads, read.1.segments = []) :
    (version = analysisVersion ∨ version = sentenceAnalysisVersion) ∧
      0 < (reads.map (·.2)).sum := by
  cases h with
  | nil => exact absurd rfl some_block
  | @cons blockId read _ _ first _ =>
      have nothing := empty read List.mem_cons_self
      obtain ⟨block, result, found, -, segmented, rfl⟩ := first
      have omitted := (segmented.some_tile (visible_of_boundary boundary found)).resolve_left
        (by simpa using nothing)
      constructor
      · by_contra old
        rw [not_or] at old
        rw [segmented.omits old.1 old.2] at omitted
        exact absurd omitted (Nat.lt_irrefl 0)
      · simp only [List.map_cons, List.sum_cons]
        omega

theorem reads_blockIds (h : List.Forall₂ (Reads tables version normalized) allowedBlockIds reads) :
    (queues (reads.map (·.1))).map Prod.fst = allowedBlockIds := by
  induction h with
  | nil => rfl
  | cons first _ ih =>
      obtain ⟨block, result, -, -, -, rfl⟩ := first
      simp only [queues, List.map_cons, List.map_map] at ih ⊢
      rw [ih]

/-- A quotation that the catalog can offer. -/
def Quotes (normalized : NormalizedDocument) (allowedBlockIds : List String)
    (quotation : String × String) : Prop :=
  quotation.1 ∈ allowedBlockIds ∧ ∃ block, normalized.findBlock quotation.1 = some block ∧
    Trimmed quotation.2.toList ∧ quotation.2.toList.length ≤ maxAnalysisQuoteCharacters ∧
    quotation.2.toList <:+: block.text.toList

/-- A segment that the segmentation takes from a block. -/
def IsSegment (tables : SentenceTables) (version : String) (normalized : NormalizedDocument)
    (blockId quote : String) : Prop :=
  ∃ block result, normalized.findBlock blockId = some block ∧
    quoteSegmentationForVersion tables version block.text.toList = some result ∧
    quote.toList ∈ result.segments

theorem reads_segment
    (h : List.Forall₂ (Reads tables version normalized) allowedBlockIds reads)
    {quotation : String × String} (mem : quotation ∈ roundRobin (queues (reads.map (·.1)))) :
    quotation.1 ∈ allowedBlockIds ∧ ∃ block result,
      normalized.findBlock quotation.1 = some block ∧
      quoteSegmentationForVersion tables version block.text.toList = some result ∧
      Segmented version block.text.toList result ∧ quotation.2.toList ∈ result.segments := by
  obtain ⟨segments, queue_mem, offered⟩ := mem_roundRobin.mp mem
  rw [queues, List.map_map, List.mem_map] at queue_mem
  obtain ⟨read, read_mem, same⟩ := queue_mem
  obtain ⟨blockId, id_mem, block, result, found, cut, segmented, rfl⟩ :=
    forall₂_right_exists h read_mem
  obtain ⟨own, rfl⟩ := Prod.mk.inj same
  obtain ⟨segment, segment_mem, shown⟩ := List.mem_map.mp offered
  refine ⟨own ▸ id_mem, block, result, own ▸ found, cut, segmented, ?_⟩
  rwa [← shown, String.toList_ofList]

theorem reads_quote (h : List.Forall₂ (Reads tables version normalized) allowedBlockIds reads)
    {quotation : String × String} (mem : quotation ∈ roundRobin (queues (reads.map (·.1)))) :
    Quotes normalized allowedBlockIds quotation := by
  obtain ⟨id_mem, block, result, found, -, segmented, segment_mem⟩ := reads_segment h mem
  obtain ⟨trimmed, short⟩ := segmented.canonical _ segment_mem
  exact ⟨id_mem, block, found, trimmed, short, segmented.exact _ segment_mem⟩

end Reading

/-! ## Validation -/

section Validation

variable {platform : TextPlatform} (injective : Function.Injective platform.sha256Hex)
  {version : String} {chunk : DocumentChunk} {normalized : NormalizedDocument}
  {allowedBlockIds : List String}

include injective

theorem quoteIdentity_injective {quotation quotation' : String × String}
    (plain : '\x00' ∉ quotation.1.toList) (plain' : '\x00' ∉ quotation'.1.toList)
    (h : quoteIdentity platform version chunk quotation.1 (normalized.blockPage quotation.1)
        quotation.2 =
      quoteIdentity platform version chunk quotation'.1 (normalized.blockPage quotation'.1)
        quotation'.2) : quotation = quotation' := by
  have parts :=
    separated_cons_cancel (separated_cons_cancel (deterministicId_separated injective h))
  obtain ⟨blocks, parts⟩ := separated_cons_inj plain plain' parts
  obtain ⟨-, parts⟩ := separated_cons_inj (toString_plain _) (toString_plain _) parts
  exact Prod.ext blocks (separated_singleton_inj parts)

/-- Distinct quotations of the allowed blocks validate, after what was checked before. -/
theorem validateCandidates_ok {quotations : List (String × String)} {checked : CheckedCandidates}
    {first : Nat} (small : first + quotations.length ≤ maxAnalysisSelections)
    (quotes : ∀ quotation ∈ quotations, Quotes normalized allowedBlockIds quotation)
    (plain : ∀ blockId ∈ allowedBlockIds, '\x00' ∉ blockId.toList)
    (distinct : quotations.Nodup)
    (fresh : ∀ quotation ∈ quotations, quotation ∉ checked.signatures)
    (ids : ∀ id ∈ checked.selectionIds, ∃ index < first, id = selectionIdAt index)
    (identities : ∀ identity ∈ checked.fullIdentities, ∃ quotation ∈ checked.signatures,
      quotation.1 ∈ allowedBlockIds ∧ identity = quoteIdentity platform version chunk quotation.1
        (normalized.blockPage quotation.1) quotation.2) :
    validateCandidates platform version chunk normalized allowedBlockIds checked
      ((candidatesFrom platform version chunk normalized first quotations).zipIdx first) =
      .ok () := by
  induction quotations generalizing checked first with
  | nil => rfl
  | cons quotation rest ih =>
      rw [List.length_cons] at small
      obtain ⟨new, distinct⟩ := List.nodup_cons.mp distinct
      obtain ⟨id_mem, block, found, trimmed, short, exact_⟩ := quotes quotation List.mem_cons_self
      have page : normalized.blockPage quotation.1 = block.source.pageStart := by
        rw [NormalizedDocument.blockPage, found]
        rfl
      have unused : selectionIdAt first ∉ checked.selectionIds := by
        intro mem
        obtain ⟨index, before, same⟩ := ids _ mem
        exact absurd (selectionIdAt_injective same) before.ne'
      have unseen : quoteIdentity platform version chunk quotation.1
          (normalized.blockPage quotation.1) quotation.2 ∉ checked.fullIdentities := by
        intro mem
        obtain ⟨other, other_mem, other_id, same⟩ := identities _ mem
        have again := quoteIdentity_injective injective (plain _ id_mem) (plain _ other_id) same
        exact fresh quotation List.mem_cons_self (again ▸ other_mem)
      have accepted : ¬ ((candidateOf platform version chunk normalized (quotation, first)).selectionId
            ≠ selectionIdAt first ∨
          (candidateOf platform version chunk normalized (quotation, first)).fullIdentity ≠
            quoteIdentity platform version chunk quotation.1 (normalized.blockPage quotation.1)
              quotation.2 ∨
          selectionIdAt first ∈ checked.selectionIds ∨
          quoteIdentity platform version chunk quotation.1 (normalized.blockPage quotation.1)
            quotation.2 ∈ checked.fullIdentities ∨
          (quotation.1, quotation.2) ∈ checked.signatures ∨ quotation.1 ∉ allowedBlockIds ∨
          normalized.blockPage quotation.1 ≠ block.source.pageStart ∨
          canonicalBoundedText quotation.2 maxAnalysisQuoteCharacters = false ∨
          containsText quotation.2.toList block.text.toList = false) := by
        simp only [candidateOf, ne_eq, not_true_eq_false, not_or, not_not, true_and, not_false_eq_true,
          Bool.not_eq_false]
        exact ⟨unused, unseen, fresh quotation List.mem_cons_self, id_mem, page,
          canonicalBoundedText_iff.mpr ⟨trimmed, short⟩, containsText_iff.mpr exact_⟩
      rw [candidatesFrom, List.zipIdx_cons, List.map_cons, List.zipIdx_cons, validateCandidates]
      refine (ok_bind (okOrElse_eq_ok.mpr found) _).trans ?_
      refine (ok_bind (okOrElse_eq_ok.mpr (analysisSelectionId_eq (by omega))) _).trans ?_
      refine (ok_bind (refuseIf_of_not accepted) _).trans ?_
      refine ih (by omega) (fun q mem => quotes q (List.mem_cons_of_mem _ mem)) distinct ?_ ?_ ?_
      · intro other mem
        rw [List.mem_cons, not_or]
        refine ⟨?_, fresh other (List.mem_cons_of_mem _ mem)⟩
        rintro rfl
        exact new mem
      · intro id mem
        rcases List.mem_cons.mp mem with rfl | old
        · exact ⟨first, Nat.lt_succ_self _, rfl⟩
        · obtain ⟨index, before, same⟩ := ids id old
          exact ⟨index, before.trans (Nat.lt_succ_self _), same⟩
      · intro identity mem
        rcases List.mem_cons.mp mem with rfl | old
        · exact ⟨quotation, List.mem_cons_self, id_mem, rfl⟩
        · obtain ⟨other, other_mem, same⟩ := identities identity old
          exact ⟨other, List.mem_cons_of_mem _ other_mem, same⟩

end Validation

/-! ## Catalogs -/

/-- The candidate copies a part of a block of the chunk, under the identity and the page of
that block. -/
def CopiesBlock (normalized : NormalizedDocument) (chunk : DocumentChunk)
    (candidate : AnalysisQuoteCandidate) : Prop :=
  candidate.blockId ∈ chunk.blockIds ∧ ∃ block,
    normalized.findBlock candidate.blockId = some block ∧
    candidate.pageNumber = block.source.pageStart ∧
    candidate.exactQuote.toList <:+: block.text.toList

/-- A block from which the segmentation takes at least one segment. -/
def OffersSegment (tables : SentenceTables) (version : String) (normalized : NormalizedDocument)
    (blockId : String) : Prop :=
  ∃ block result, normalized.findBlock blockId = some block ∧
    quoteSegmentationForVersion tables version block.text.toList = some result ∧
    result.segments ≠ []

/-- Before a block gets a further candidate, every block that offers one has a candidate. -/
def TakesTurns (offers : String → Prop) (allowedBlockIds : List String)
    (candidates : List AnalysisQuoteCandidate) : Prop :=
  ∀ front candidate back, candidates = front ++ candidate :: back →
    candidate.blockId ∈ front.map (·.blockId) →
    ∀ blockId ∈ allowedBlockIds, offers blockId → blockId ∈ front.map (·.blockId)

section Catalogs

variable {platform : TextPlatform} {version : String} {chunk : DocumentChunk}
  {normalized : NormalizedDocument} {chunked : ChunkedDocument} {allowedBlockIds : List String}
  {tables : SentenceTables} {quotations : List (String × String)}
  {reads : List (BlockSegments × Nat)}

theorem candidatesFrom_length (first : Nat) :
    (candidatesFrom platform version chunk normalized first quotations).length =
      quotations.length := by
  rw [candidatesFrom, List.length_map, List.length_zipIdx]

theorem mem_candidatesFrom {first : Nat} {candidate : AnalysisQuoteCandidate}
    (mem : candidate ∈ candidatesFrom platform version chunk normalized first quotations) :
    ∃ quotation ∈ quotations, ∃ index < first + quotations.length,
      candidate = candidateOf platform version chunk normalized (quotation, index) := by
  obtain ⟨⟨quotation, index⟩, pair_mem, rfl⟩ := List.mem_map.mp mem
  have inside := List.mem_zipIdx pair_mem
  exact ⟨quotation, List.fst_mem_of_mem_zipIdx pair_mem, index, inside.2.1, rfl⟩

theorem candidatesFrom_selectionIds (first : Nat) :
    ((candidatesFrom platform version chunk normalized first quotations).map (·.selectionId)).Nodup := by
  induction quotations generalizing first with
  | nil => exact List.nodup_nil
  | cons quotation rest ih =>
      rw [candidatesFrom, List.zipIdx_cons, List.map_cons, List.map_cons, List.nodup_cons]
      refine ⟨?_, ih (first + 1)⟩
      intro mem
      obtain ⟨candidate, inside, same⟩ := List.mem_map.mp mem
      obtain ⟨⟨other, index⟩, pair_mem, rfl⟩ := List.mem_map.mp inside
      have later := List.le_snd_of_mem_zipIdx pair_mem
      have equal := selectionIdAt_injective same
      simp only at later
      omega

theorem candidatesFrom_fullIdentities (injective : Function.Injective platform.sha256Hex)
    (plain : ∀ quotation ∈ quotations, '\x00' ∉ quotation.1.toList) (distinct : quotations.Nodup)
    (first : Nat) :
    ((candidatesFrom platform version chunk normalized first quotations).map
      (·.fullIdentity)).Nodup := by
  induction quotations generalizing first with
  | nil => exact List.nodup_nil
  | cons quotation rest ih =>
      obtain ⟨new, others⟩ := List.nodup_cons.mp distinct
      rw [candidatesFrom, List.zipIdx_cons, List.map_cons, List.map_cons, List.nodup_cons]
      refine ⟨?_, ih (fun q mem => plain q (List.mem_cons_of_mem _ mem)) others (first + 1)⟩
      intro mem
      obtain ⟨candidate, inside, same⟩ := List.mem_map.mp mem
      obtain ⟨other, other_mem, _, -, rfl⟩ := mem_candidatesFrom inside
      have equal := quoteIdentity_injective injective
        (plain other (List.mem_cons_of_mem _ other_mem)) (plain quotation List.mem_cons_self) same
      exact new (equal ▸ other_mem)

/-- The quotations that the blocks give in rounds, each once. -/
def offeredQuotations (reads : List (BlockSegments × Nat)) : List (String × String) :=
  firstsAfter [] (roundRobin (queues (reads.map (·.1))))

theorem longest_queues (blocks : List BlockSegments) :
    (blocks.map (·.segments.length)).foldr max 0 = longest (queues blocks) := by
  rw [longest, queues, List.map_map]
  rfl

theorem rounds_few (admitted : AdmittedScope normalized chunked chunk allowedBlockIds)
    (read : List.Forall₂ (Reads tables version normalized) allowedBlockIds reads) :
    (roundRobin (queues (reads.map (·.1)))).length ≤ maxAnalysisSelections := by
  have bytes := admitted.bytes
  have size := reads_size read
  have rounds := length_rounds_le (longest (queues (reads.map (·.1)))) (queues (reads.map (·.1)))
  have held : ((queues (reads.map (·.1))).map fun queue => queue.2.length) =
      reads.map fun read => read.1.segments.length := by
    rw [queues, List.map_map, List.map_map]
    rfl
  rw [held] at rounds
  rw [maxChunkInputCharacters] at bytes
  rw [roundRobin, maxAnalysisSelections]
  omega

theorem reads_pages
    (read : List.Forall₂ (Reads tables version normalized) allowedBlockIds reads) :
    ∀ block ∈ reads.map (·.1), block.pageNumber = normalized.blockPage block.blockId := by
  intro block mem
  obtain ⟨pair, pair_mem, rfl⟩ := List.mem_map.mp mem
  obtain ⟨blockId, -, own, result, found, -, -, rfl⟩ := forall₂_right_exists read pair_mem
  rw [NormalizedDocument.blockPage, found]
  rfl

theorem mem_offeredQuotations {entry : BlockSegments × Nat} {segment : String}
    (mem : entry ∈ reads) (segment_mem : segment ∈ entry.1.segments) :
    (entry.1.blockId, segment) ∈ offeredQuotations reads := by
  refine mem_firstsAfter.mpr ⟨mem_roundRobin.mpr ⟨entry.1.segments, ?_, segment_mem⟩,
    List.not_mem_nil⟩
  rw [queues, List.map_map]
  exact List.mem_map_of_mem mem

theorem candidatesFrom_quotations (first : Nat) :
    (candidatesFrom platform version chunk normalized first quotations).map
      (fun candidate => (candidate.blockId, candidate.exactQuote)) = quotations := by
  rw [candidatesFrom, List.map_map]
  exact List.zipIdx_map_fst first quotations

/-- The candidates are the segments of the allowed blocks, all of them. -/
theorem represents_of_reads
    (read : List.Forall₂ (Reads tables version normalized) allowedBlockIds reads)
    {blockId quote : String} :
    (∃ candidate ∈ candidatesFrom platform version chunk normalized 0 (offeredQuotations reads),
      candidate.blockId = blockId ∧ candidate.exactQuote = quote) ↔
      blockId ∈ allowedBlockIds ∧ IsSegment tables version normalized blockId quote := by
  constructor
  · rintro ⟨candidate, mem, own, exact_quote⟩
    obtain ⟨quotation, offered, _, -, rfl⟩ := mem_candidatesFrom mem
    obtain ⟨id_mem, block, result, found, cut, -, segment_mem⟩ :=
      reads_segment read (mem_firstsAfter.mp offered).1
    subst own exact_quote
    exact ⟨id_mem, block, result, found, cut, segment_mem⟩
  · rintro ⟨id_mem, block, result, found, cut, segment_mem⟩
    obtain ⟨entry, entry_mem, block', result', found', cut', -, rfl⟩ :=
      forall₂_left_exists read id_mem
    obtain rfl := Option.some.inj (found.symm.trans found')
    obtain rfl := Option.some.inj (cut.symm.trans cut')
    have segment : quote ∈ result.segments.map String.ofList :=
      List.mem_map.mpr ⟨_, segment_mem, String.ofList_toList⟩
    have offered := mem_offeredQuotations entry_mem segment
    have listed := @candidatesFrom_quotations platform version chunk normalized
      (offeredQuotations reads) 0
    rw [← listed] at offered
    obtain ⟨candidate, mem, same⟩ := List.mem_map.mp offered
    exact ⟨candidate, mem, congrArg Prod.fst same, congrArg Prod.snd same⟩

/-- Over an admitted scope the catalog keeps what is offered. -/
theorem derive_ok (admitted : AdmittedScope normalized chunked chunk allowedBlockIds) :
    ∃ reads, List.Forall₂ (Reads tables version normalized) allowedBlockIds reads ∧
      deriveAnalysisQuoteCatalogForBlocks platform version chunk normalized tables
        allowedBlockIds = .ok ⟨candidatesFrom platform version chunk normalized 0
          (offeredQuotations reads), (reads.map (·.2)).sum⟩ := by
  have bytes := admitted.bytes
  rw [maxChunkInputCharacters] at bytes
  obtain ⟨reads, read, cut⟩ := @segmentBlocks_ok normalized allowedBlockIds tables version 0
    (fun blockId mem => admitted.known mem) (by rw [usizeMax]; omega)
  obtain ⟨later, offered⟩ := @offerQuotations_ok platform version chunk normalized
    (roundRobin (queues (reads.map (·.1)))) [] []
    (by rw [List.length_nil, Nat.zero_add]; exact rounds_few admitted read)
  have rounds_done := @rounds_eq platform version chunk normalized (reads.map (·.1)) ⟨[], []⟩
    (List.range (longest (queues (reads.map (·.1))))) (reads_pages read)
  have accepted : ¬ (candidatesFrom platform version chunk normalized 0
        (offeredQuotations reads) = [] ∧
      ¬ ((version = analysisVersion ∨ version = sentenceAnalysisVersion) ∧
        0 < (reads.map (·.2)).sum)) := by
    rintro ⟨empty, silent⟩
    apply silent
    apply reads_offer admitted.boundary read admitted.some_block
    intro entry mem
    by_contra some_segment
    obtain ⟨segment, segment_mem⟩ := List.exists_mem_of_ne_nil _ some_segment
    have size := congrArg List.length empty
    rw [candidatesFrom_length, List.length_nil, List.length_eq_zero_iff] at size
    exact absurd (size ▸ mem_offeredQuotations mem segment_mem) List.not_mem_nil
  refine ⟨reads, read, ?_⟩
  rw [deriveAnalysisQuoteCatalogForBlocks, deriveQuoteCatalogWithSegmentation]
  refine (ok_bind cut _).trans ?_
  simp only [longest_queues, rounds_done, Nat.zero_add]
  refine (ok_bind (congrArg propagate offered) _).trans ?_
  exact ok_bind (congrArg propagate (refuseIf_of_not accepted)) _

theorem validate_derived (injective : Function.Injective platform.sha256Hex)
    (plain : ∀ blockId ∈ allowedBlockIds, '\x00' ∉ blockId.toList)
    (admitted : AdmittedScope normalized chunked chunk allowedBlockIds)
    (read : List.Forall₂ (Reads tables version normalized) allowedBlockIds reads)
    {catalog : AnalysisQuoteCatalog}
    (derived : deriveAnalysisQuoteCatalogForBlocks platform version chunk normalized tables
      allowedBlockIds = .ok catalog)
    (candidates : catalog.candidates =
      candidatesFrom platform version chunk normalized 0 (offeredQuotations reads)) :
    validateVersionedAnalysisQuoteCatalogForBlocks platform version chunk normalized tables
      allowedBlockIds catalog.candidates = .ok () := by
  have small : 0 + (offeredQuotations reads).length ≤ maxAnalysisSelections := by
    rw [Nat.zero_add]
    exact firstsAfter_length_le.trans (rounds_few admitted read)
  have valid := @validateCandidates_ok platform injective version chunk normalized allowedBlockIds
    (offeredQuotations reads) ⟨[], [], []⟩ 0 small
    (fun quotation mem => reads_quote read (mem_firstsAfter.mp mem).1) plain firstsAfter_nodup
    (fun _ _ => List.not_mem_nil) (fun _ mem => absurd mem List.not_mem_nil)
    (fun _ mem => absurd mem List.not_mem_nil)
  rw [validateVersionedAnalysisQuoteCatalogForBlocks]
  refine (ok_bind derived _).trans ?_
  refine (ok_bind (congrArg propagate (refuseIf_of_not (not_not.mpr rfl))) _).trans ?_
  rw [candidates, valid]
  rfl

theorem takesTurns_of_reads (distinct : allowedBlockIds.Nodup)
    (read : List.Forall₂ (Reads tables version normalized) allowedBlockIds reads) :
    TakesTurns (OffersSegment tables version normalized) allowedBlockIds
      (candidatesFrom platform version chunk normalized 0 (offeredQuotations reads)) := by
  intro front candidate back split again blockId id_mem offers
  have keys := reads_blockIds read
  rw [candidatesFrom, List.map_eq_append_iff] at split
  obtain ⟨places, tail, cut, fronts, backs⟩ := split
  cases tail with
  | nil => cases backs
  | cons place tail =>
      obtain ⟨rfl, -⟩ := List.cons.inj backs
      have quoted := congrArg (List.map Prod.fst) cut
      rw [List.zipIdx_map_fst, List.map_append, List.map_cons] at quoted
      have ids : front.map (·.blockId) = (places.map Prod.fst).map Prod.fst := by
        rw [← fronts, List.map_map, List.map_map]
        rfl
      rw [ids] at again ⊢
      obtain ⟨entry, entry_mem, own, result, found, segmentation, segmented, rfl⟩ :=
        forall₂_left_exists read id_mem
      obtain ⟨block', result', found', segmentation', some_segment⟩ := offers
      obtain rfl := Option.some.inj (found.symm.trans found')
      obtain rfl := Option.some.inj (segmentation.symm.trans segmentation')
      have queue_mem : (blockId, result.segments.map String.ofList) ∈
          queues (reads.map (·.1)) := by
        rw [queues, List.map_map]
        exact List.mem_map_of_mem entry_mem
      exact firsts_roundRobin_fair (keys ▸ distinct) quoted again queue_mem (by simpa using some_segment)

end Catalogs

end DocumentSummarizer.Pipeline
