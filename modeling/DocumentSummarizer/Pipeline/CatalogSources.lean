import Mathlib.Algebra.Order.BigOperators.Group.List
import DocumentSummarizer.Pipeline.ContractRecords
import DocumentSummarizer.Pipeline.EarlierSegments
import DocumentSummarizer.Pipeline.QuoteCatalog

/-! # What a catalog is made of

The blocks of an admitted scope are known, together not longer than their chunk,
and every version cuts them into few canonical segments.
-/

namespace DocumentSummarizer.Pipeline

open Library

theorem containsText_iff {pattern text : List Char} :
    containsText pattern text = true ↔ pattern <:+: text := by
  simp only [containsText, List.any_eq_true, List.mem_tails, List.isPrefixOf_iff_prefix,
    List.infix_iff_prefix_suffix]
  exact ⟨fun ⟨tail, inside, starts⟩ => ⟨tail, starts, inside⟩,
    fun ⟨tail, starts, inside⟩ => ⟨tail, inside, starts⟩⟩

theorem canonicalBoundedText_iff {value : String} {bound : Nat} :
    canonicalBoundedText value bound = true ↔
      Trimmed value.toList ∧ value.toList.length ≤ bound := by
  simp only [canonicalBoundedText, Bool.and_eq_true, decide_eq_true_eq, trimmed_iff, ne_eq,
    String.toList_eq_nil_iff]
  exact ⟨fun ⟨⟨visible, same⟩, short⟩ => ⟨⟨same, visible⟩, short⟩,
    fun ⟨⟨same, visible⟩, short⟩ => ⟨⟨visible, same⟩, short⟩⟩

/-! ## Segments of a block -/

/-- What the catalog relies on in the segmentation of a text. -/
structure Segmented (version : String) (text : List Char) (result : QuoteSegmentation) : Prop where
  few : result.segments.length + result.omittedSourceUnits ≤ byteLength text
  canonical : ∀ segment ∈ result.segments,
    Trimmed segment ∧ segment.length ≤ maxAnalysisQuoteCharacters
  exact : ∀ segment ∈ result.segments, segment <:+: text
  some_tile : blank text = false → result.segments ≠ [] ∨ 0 < result.omittedSourceUnits
  omits : version ≠ analysisVersion → version ≠ sentenceAnalysisVersion →
    result.omittedSourceUnits = 0

section Segments

variable {source : List Char} {tiles : List AccountedTile} {result : QuoteSegmentation}
  {start finish : Nat}

theorem Accounts.count (h : Accounts source start finish tiles result) :
    tiles.length = result.segments.length + result.omittedSourceUnits := by
  have segments := h.segments
  have omitted := h.omitted
  clear h
  rw [← segments, ← omitted]
  clear segments omitted
  induction tiles with
  | nil => rfl
  | cons tile rest ih =>
      cases shown : tile.shown with
      | none =>
          rw [List.filterMap_cons_none shown, List.filter_cons_of_pos (by simp [shown]),
            List.length_cons, List.length_cons, ih, Nat.add_assoc]
      | some text =>
          rw [List.filterMap_cons_some shown, List.filter_cons_of_neg (by simp [shown]),
            List.length_cons, List.length_cons, ih, Nat.add_right_comm]

theorem quoteSegmentation_segmented (tables : SentenceTables) (version : String)
    (source : List Char) :
    ∃ result, quoteSegmentationForVersion tables version source = some result ∧
      Segmented version source result := by
  obtain ⟨result, tiles, found, accounts, bounded⟩ :=
    quoteSegmentationForVersion_spec tables version source
  have offered := accounts.offered bounded
  refine ⟨result, found, ?_, ?_, ?_, ?_, ?_⟩
  · have few := accounts.tiled.length_le (fun gap => gap.le) (fun tile => tile.lt)
    rw [List.length_map, accounts.count] at few
    omega
  · intro segment mem
    obtain ⟨range, -, shown⟩ := forall₂_right_exists offered mem
    exact ⟨shown.trimmed, shown.bounded⟩
  · intro segment mem
    obtain ⟨range, -, shown⟩ := forall₂_right_exists offered mem
    obtain ⟨front, back, whole, -⟩ := byteSlice_eq_some.mp shown.slice
    exact ⟨front, back, by rw [whole, List.append_assoc]⟩
  · intro visible
    have visible_char : ∃ c ∈ source, isWhitespace c = false := by
      by_contra all
      have hidden : ∀ c ∈ source, isWhitespace c = true := by simpa using all
      rw [blank_iff.mpr hidden] at visible
      cases visible
    obtain ⟨c, mem, shown⟩ := visible_char
    obtain ⟨front, back, rfl⟩ := List.append_of_mem mem
    have inside : byteLength front < byteLength (front ++ c :: back) := by
      have := c.utf8Size_pos
      rw [byteLength_append, byteLength_cons]
      omega
    obtain ⟨tile, tile_mem, -⟩ := accounts.covers (Nat.zero_le _) inside shown
    have counted := accounts.count
    have := List.length_pos_of_mem tile_mem
    rcases Nat.eq_zero_or_pos result.omittedSourceUnits with none_omitted | omitted
    · left
      rintro empty
      rw [empty, none_omitted, List.length_nil] at counted
      omega
    · exact .inr omitted
  · intro old older
    rw [quoteSegmentationForVersion, if_neg old, if_neg older] at found
    obtain ⟨segments, -, rfl⟩ := Option.map_eq_some_iff.mp found
    rfl

end Segments

/-! ## Blocks of a chunk -/

section Chunks

variable {normalized : NormalizedDocument} {chunked : ChunkedDocument} {chunk : DocumentChunk}

theorem validateChunks_lengths {chunkIds blockIds : List String} {chunks : List DocumentChunk}
    {first : Nat} (h : Analysis.validateChunks chunkIds blockIds (chunks.zipIdx first) = .ok ())
    (mem : chunk ∈ chunks) : chunk.blockIds.length = chunk.sourceSpans.length := by
  induction chunks generalizing chunkIds blockIds first with
  | nil => cases mem
  | cons own rest ih =>
      simp only [List.zipIdx_cons, Analysis.validateChunks, peel_ok, refuseIf_eq_ok, not_or,
        not_not] at h
      obtain ⟨_, -, _, accepted, _, -, later⟩ := h
      rcases List.mem_cons.mp mem with rfl | further
      · exact accepted.2.2.2.2.2.1
      · exact ih later further

theorem chunk_blocks (accepted : Analysis.validateChunkedDocument chunked = .ok ())
    (boundary : validateNormalizedChunkBoundary normalized chunked = .ok ())
    (mem : chunk ∈ chunked.chunks) :
    ∃ texts, List.Forall₂ (fun blockId text => ∃ block, normalized.findBlock blockId = some block ∧
      text = block.text) chunk.blockIds texts ∧ chunk.text = joinBlocks texts := by
  simp only [Analysis.validateChunkedDocument, peel_ok] at accepted
  obtain ⟨_, -, _, -, checked⟩ := accepted
  have lengths := validateChunks_lengths checked mem
  simp only [validateNormalizedChunkBoundary, peel_ok] at boundary
  obtain ⟨_, -, _, -, order, collected, -⟩ := boundary
  obtain ⟨ids, -, own⟩ := forall₂_left_exists (mapM_ok_iff.mp collected) mem
  simp only [boundaryChunk, peel_ok, return_ok, refuseIf_eq_ok, not_not] at own
  obtain ⟨blocks, read, _, same, -⟩ := own
  refine ⟨blocks.map (·.2), ?_, same.symm⟩
  have firsts : chunk.blockIds = (chunk.blockIds.zip chunk.sourceSpans).map Prod.fst := by
    rw [List.map_fst_zip (le_of_eq lengths)]
  rw [firsts, List.forall₂_map_left_iff, List.forall₂_map_right_iff]
  refine (mapM_ok_iff.mp read).imp ?_
  rintro pair result h
  simp only [peel_ok, okOrElse_eq_ok, return_ok] at h
  obtain ⟨block, found, _, -, rfl⟩ := h
  exact ⟨block, found, rfl⟩

theorem length_joinBlocks_le (texts : List String) :
    (texts.map fun text => text.toList.length).sum ≤ (joinBlocks texts).toList.length := by
  induction texts with
  | nil => exact Nat.zero_le _
  | cons text rest ih =>
      cases rest with
      | nil => simp [joinBlocks]
      | cons next later =>
          have whole : (joinBlocks (text :: next :: later)).toList =
              text.toList ++ "\n\n".toList ++ (joinBlocks (next :: later)).toList := by
            rw [joinBlocks, String.intercalate_cons_cons, String.toList_append,
              String.toList_append]
            rfl
          rw [whole, List.map_cons, List.sum_cons, List.length_append, List.length_append]
          omega

theorem byteLength_le (text : List Char) : byteLength text ≤ 4 * text.length := by
  induction text with
  | nil => exact Nat.le_refl _
  | cons c rest ih =>
      have := c.utf8Size_le_four
      rw [byteLength_cons, List.length_cons]
      omega

end Chunks

/-! ## Admitted scopes -/

/-- A scope whose chunk the analysis takes: it accepts the documents, and the chunk is within
the admission limit. -/
structure AdmittedScope (normalized : NormalizedDocument) (chunked : ChunkedDocument)
    (chunk : DocumentChunk) (allowedBlockIds : List String) : Prop where
  accepted : Analysis.validateChunkedDocument chunked = .ok ()
  boundary : validateNormalizedChunkBoundary normalized chunked = .ok ()
  chunk_mem : chunk ∈ chunked.chunks
  bounded : chunk.text.toList.length ≤ maxChunkInputCharacters
  some_block : allowedBlockIds ≠ []
  distinct : allowedBlockIds.Nodup
  inside : ∀ blockId ∈ allowedBlockIds, blockId ∈ chunk.blockIds

namespace AdmittedScope

variable {normalized : NormalizedDocument} {chunked : ChunkedDocument} {chunk : DocumentChunk}
  {allowedBlockIds : List String}

theorem known (h : AdmittedScope normalized chunked chunk allowedBlockIds) {blockId : String}
    (mem : blockId ∈ allowedBlockIds) : ∃ block, normalized.findBlock blockId = some block := by
  obtain ⟨texts, blocks, -⟩ := chunk_blocks h.accepted h.boundary h.chunk_mem
  obtain ⟨text, -, block, found, -⟩ := forall₂_left_exists blocks (h.inside blockId mem)
  exact ⟨block, found⟩

end AdmittedScope

/-- The size of a block in bytes, by its identity. -/
def NormalizedDocument.blockBytes (normalized : NormalizedDocument) (blockId : String) : Nat :=
  ((normalized.findBlock blockId).map fun block => byteLength block.text.toList).getD 0

theorem AdmittedScope.bytes {normalized : NormalizedDocument} {chunked : ChunkedDocument}
    {chunk : DocumentChunk} {allowedBlockIds : List String}
    (h : AdmittedScope normalized chunked chunk allowedBlockIds) :
    (allowedBlockIds.map normalized.blockBytes).sum ≤ 4 * maxChunkInputCharacters := by
  obtain ⟨texts, blocks, whole⟩ := chunk_blocks h.accepted h.boundary h.chunk_mem
  have within : (chunk.blockIds.map normalized.blockBytes).sum ≤
      4 * (texts.map fun text => text.toList.length).sum := by
    clear whole
    have inside := h.inside
    generalize chunk.blockIds = ids at blocks
    induction blocks with
    | nil => exact Nat.zero_le _
    | @cons blockId text ids texts own _ ih =>
        obtain ⟨block, found, rfl⟩ := own
        have size : normalized.blockBytes blockId = byteLength block.text.toList := by
          rw [NormalizedDocument.blockBytes, found]
          rfl
        have := byteLength_le block.text.toList
        simp only [List.map_cons, List.sum_cons, size]
        omega
  have part : (allowedBlockIds.map normalized.blockBytes).sum ≤
      (chunk.blockIds.map normalized.blockBytes).sum := by
    obtain ⟨same, perm, sub⟩ := List.subperm_of_subset h.distinct h.inside
    rw [← (perm.map _).sum_eq]
    exact (sub.map _).sum_le_sum fun _ _ => Nat.zero_le _
  have joined := length_joinBlocks_le texts
  rw [← whole] at joined
  have := h.bounded
  omega

end DocumentSummarizer.Pipeline
