import DocumentSummarizer.Pipeline.FurnitureSafety
import DocumentSummarizer.Pipeline.WholeClauses

/-! # The retained lines of a document

The lines that the retained ranges show are lines of their blocks: each visible
line is among them once, in its place, or no byte of it is retained.
-/

namespace DocumentSummarizer.Pipeline

open Library Furniture

/-- The visible lines of a block that lie in a retained range. -/
def keptLines (furniture : Furniture) (block : NormalizedBlock) : List Located :=
  (linesOf block).filter fun line => !blank line.text &&
    (furniture.retainedRanges block.blockId).any fun ranges =>
      ranges.any fun range => decide (range.1 ≤ line.start ∧ line.finish ≤ range.2)

section Blocks

variable {unicode : Unicode} {document : NormalizedDocument} {policy : FurniturePolicy}
  {page : NormalizedPage} {block : NormalizedBlock} {all : List Candidate}

theorem blockRanges_lineBreaks (identified : document.Identified)
    (page_mem : page ∈ document.pages) (block_mem : block ∈ page.content)
    (traced : Traced unicode document policy all) {range : Nat × Nat}
    (mem : range ∈ blockRanges all block) :
    IsLineBreak block.text.toList range.1 ∧
      (range.2 = byteLength block.text.toList ∨ IsLineBreak block.text.toList range.2) := by
  have whole := blockRanges_wholeLines identified page_mem block_mem traced
  obtain ⟨less, part, sliced⟩ := whole.sliced range mem
  have bounded : range.2 ≤ byteLength block.text.toList := by
    obtain ⟨front, back, same, long, size⟩ := byteSlice_eq_some.mp sliced
    rw [same, byteLength_append, byteLength_append]
    omega
  have ends : ∀ excluded ∈ excludedRanges all block, ∃ first ∈ linesOf block,
      ∃ last ∈ linesOf block, excluded.1 = first.start ∧ excluded.2 = last.finish := by
    intro excluded excluded_mem
    obtain ⟨candidate, -, origin, -, rfl⟩ :=
      excluded_origin identified page_mem block_mem traced excluded_mem
    obtain ⟨-, -, first, first_mem, last, last_mem, start, finish, -⟩ := origin.lines
    exact ⟨first, first_mem, last, last_mem, start, finish⟩
  obtain ⟨left, right⟩ := gaps_ends mem
  constructor
  · rcases left with zero | ⟨excluded, excluded_mem, same⟩
    · exact zero ▸ lineBreak_zero _
    · obtain ⟨-, -, last, last_mem, -, finish⟩ := ends excluded excluded_mem
      rw [same, finish]
      apply lineBreak_of_finish last_mem
      omega
  · rcases right with length | ⟨excluded, excluded_mem, same⟩
    · exact .inl length
    · obtain ⟨first, first_mem, -, -, start, -⟩ := ends excluded excluded_mem
      right
      rw [same, start]
      exact lineBreak_of_start first_mem

theorem within_or_removed (identified : document.Identified)
    (page_mem : page ∈ document.pages) (block_mem : block ∈ page.content)
    (traced : Traced unicode document policy all) {line : Located} (mem : line ∈ linesOf block) :
    (∃ range ∈ blockRanges all block, range.1 ≤ line.start ∧ line.finish ≤ range.2) ∨
      Removed (blockRanges all block) line := by
  by_cases within : ∃ range ∈ blockRanges all block,
      range.1 ≤ line.start ∧ line.finish ≤ range.2
  · exact .inl within
  · right
    rintro byte lower upper ⟨range, range_mem, inside⟩
    obtain ⟨first, last⟩ :=
      blockRanges_lineBreaks identified page_mem block_mem traced range_mem
    have start := inside.1
    have finish := inside.2
    refine within ⟨range, range_mem, ?_, ?_⟩
    · exact lineBreak_outside first mem (by omega)
    · rcases last with whole | last
      · rw [whole]
        exact locatedLines_le mem
      · by_contra beyond
        have := lineBreak_outside last mem (by omega)
        omega

theorem rangeLines_spec (identified : document.Identified)
    (page_mem : page ∈ document.pages) (block_mem : block ∈ page.content)
    (traced : Traced unicode document policy all) {range : Nat × Nat}
    (mem : range ∈ blockRanges all block) :
    rangeLines block range = some ((((linesOf block).filter fun line =>
      range.1 ≤ line.start ∧ line.finish ≤ range.2).filter (!blank ·.text)).map
        (trimmedLine block)) := by
  have whole := blockRanges_wholeLines identified page_mem block_mem traced
  obtain ⟨less, part, sliced⟩ := whole.sliced range mem
  obtain ⟨first, last⟩ := blockRanges_lineBreaks identified page_mem block_mem traced mem
  rw [rangeLines, sliced, Option.map_some, locatedLines_between first last less sliced]
  rfl

end Blocks

section Document

variable {unicode : Unicode} {document : NormalizedDocument} {policy : FurniturePolicy}

/-- The retained lines are the kept lines of the blocks, in the order of the document. -/
theorem retainedLines_spec (identified : document.Identified) :
    ∃ furniture, forPolicy unicode document policy = some furniture ∧
      retainedLines furniture document = some (document.blocks.flatMap fun block =>
        (keptLines furniture block).map (trimmedLine block)) ∧
      ∀ block ∈ document.blocks, ∃ ranges,
        furniture.retainedRanges block.blockId = some ranges ∧
        ∀ line ∈ linesOf block, blank line.text = true ∨ line ∈ keptLines furniture block ∨
          Removed ranges line := by
  obtain ⟨all, computed, traced⟩ := candidates_spec unicode document policy
  obtain ⟨furniture, found, ranges, -⟩ := forPolicy_spec identified computed traced
  have place : ∀ block ∈ document.blocks, ∃ page ∈ document.pages, block ∈ page.content :=
    fun block mem => List.mem_flatMap.mp mem
  have each : ∀ block ∈ document.blocks, blockLines furniture block =
      some ((keptLines furniture block).map (trimmedLine block)) := by
    intro block mem
    obtain ⟨page, page_mem, block_mem⟩ := place block mem
    have whole := blockRanges_wholeLines identified page_mem block_mem traced
    have lines : (blockRanges all block).mapM (rangeLines block) =
        some ((blockRanges all block).map fun range => (((linesOf block).filter fun line =>
          range.1 ≤ line.start ∧ line.finish ≤ range.2).filter (!blank ·.text)).map
            (trimmedLine block)) := by
      rw [mapM_some_iff, List.forall₂_map_right_iff, List.forall₂_same]
      exact fun range range_mem =>
        rangeLines_spec identified page_mem block_mem traced range_mem
    have kept : keptLines furniture block = (blockRanges all block).flatMap fun range =>
        ((linesOf block).filter fun line =>
          range.1 ≤ line.start ∧ line.finish ≤ range.2).filter (!blank ·.text) := by
      have split := @filter_ranges Located (·.start) (·.finish) (linesOf block)
        (blockRanges all block) locatedLines_pairwise (fun line => locatedLines_nonempty)
        whole.ascending
      have visible := congrArg (List.filter (!blank ·.text)) split
      rw [List.filter_filter, List.filter_flatMap] at visible
      rw [keptLines, ranges block mem]
      exact visible
    rw [blockLines, ranges block mem]
    simp only [bind, Option.bind_some, lines, pure]
    rw [kept, List.map_flatMap, List.flatMap_def]
  refine ⟨furniture, found, ?_, ?_⟩
  · have lines : document.blocks.mapM (blockLines furniture) = some (document.blocks.map fun block =>
        (keptLines furniture block).map (trimmedLine block)) := by
      rw [mapM_some_iff, List.forall₂_map_right_iff, List.forall₂_same]
      exact each
    rw [retainedLines, lines, Option.map_some, List.flatMap_def]
  · intro block mem
    obtain ⟨page, page_mem, block_mem⟩ := place block mem
    refine ⟨_, ranges block mem, ?_⟩
    intro line line_mem
    cases visible : blank line.text with
    | true => exact .inl rfl
    | false =>
        right
        rcases within_or_removed identified page_mem block_mem traced line_mem with
          ⟨range, range_mem, within⟩ | removed
        · left
          rw [keptLines, List.mem_filter, ranges block mem]
          refine ⟨line_mem, ?_⟩
          simp only [visible, Option.any_some, List.any_eq_true, decide_eq_true_eq,
            Bool.not_false, Bool.true_and]
          exact ⟨range, range_mem, within⟩
        · exact .inr removed

end Document

end DocumentSummarizer.Pipeline
