import Mathlib.Data.List.Chain
import DocumentSummarizer.Pipeline.RetainedLines
import DocumentSummarizer.Pipeline.TrimmedText

/-! # Fragments that cover lines

Appending a line to the fragments of a clause loses nothing: every fragment
shows a run of lines with nothing but space between them.
-/

namespace DocumentSummarizer.Pipeline

open Library Furniture

/-- The line is what its block has at its place, without whitespace around it. -/
structure SourceLine.Placed (document : NormalizedDocument) (line : SourceLine) : Prop where
  sliced : document.slice line.fragment = some line.text
  trimmed : Trimmed line.text

/-- The fragment shows the lines of a group: from the first to the last, with nothing but space
between two of them. -/
structure ShowsLines (document : NormalizedDocument) (fragment : SourceFragment)
    (group : List SourceLine) : Prop where
  own : ∀ line ∈ group, line.blockId = fragment.blockId
  starts : group.head?.map (·.start) = some fragment.start
  ends : group.getLast?.map (·.finish) = some fragment.finish
  spaced : group.IsChain fun a b => a.finish ≤ b.start ∧
    ∃ gap, document.slice ⟨fragment.blockId, a.finish, b.start⟩ = some gap ∧ blank gap = true
  exact_ : ∃ text, document.slice fragment = some text ∧ Trimmed text

/-- The fragments show the lines in order, each line in one fragment. -/
def Covers (document : NormalizedDocument) (fragments : List SourceFragment)
    (lines : List SourceLine) : Prop :=
  ∃ groups, groups.flatten = lines ∧ List.Forall₂ (ShowsLines document) fragments groups

section Placing

variable {unicode : Unicode} {document : NormalizedDocument} {furniture : Furniture}
  {block : NormalizedBlock} {line : SourceLine}

theorem findBlock_of_identified (identified : document.Identified) (mem : block ∈ document.blocks) :
    document.findBlock block.blockId = some block := by
  have exists_ : (document.blocks.reverse.find? (·.blockId = block.blockId)).isSome = true := by
    rw [List.find?_isSome]
    exact ⟨block, List.mem_reverse.mpr mem, by simp⟩
  obtain ⟨found, hit⟩ := Option.isSome_iff_exists.mp exists_
  have same := List.find?_some hit
  have inside := List.mem_reverse.mp (List.mem_of_find?_eq_some hit)
  rw [NormalizedDocument.findBlock, hit,
    List.inj_on_of_nodup_map identified.blocks inside mem (of_decide_eq_true same)]

theorem findBlock_spec {blockId : String} (h : document.findBlock blockId = some block) :
    block ∈ document.blocks ∧ block.blockId = blockId :=
  ⟨List.mem_reverse.mp (List.mem_of_find?_eq_some h), of_decide_eq_true (List.find?_some h :)⟩

theorem slice_eq_some {fragment : SourceFragment} {text : List Char} :
    document.slice fragment = some text ↔ ∃ block, document.findBlock fragment.blockId = some block ∧
      byteSlice block.text.toList fragment.start fragment.finish = some text :=
  Option.bind_eq_some_iff

theorem placed_of_kept (identified : document.Identified)
    (mem : line ∈ document.blocks.flatMap fun block =>
      (keptLines furniture block).map (trimmedLine block)) :
    line.Placed document := by
  obtain ⟨block, block_mem, line_mem⟩ := List.mem_flatMap.mp mem
  obtain ⟨source, kept, rfl⟩ := List.mem_map.mp line_mem
  obtain ⟨source_mem, visible⟩ := List.mem_filter.mp kept
  have sliced := locatedLines_slice source_mem
  have shown := (Bool.and_eq_true_iff.mp visible).1
  constructor
  · exact slice_eq_some.mpr ⟨block, findBlock_of_identified identified block_mem, byteSlice_trim sliced⟩
  · exact trimmed_trim (by simpa using shown)

end Placing

section Covering

variable {document : NormalizedDocument} {fragments front : List SourceFragment}
  {lines : List SourceLine} {line : SourceLine} {fragment : SourceFragment}
  {group : List SourceLine}

theorem Covers.nil : Covers document [] [] :=
  ⟨[], rfl, .nil⟩

theorem SourceLine.Placed.shows (placed : line.Placed document) :
    ShowsLines document line.fragment [line] where
  own := by
    intro other mem
    rw [List.mem_singleton.mp mem]
    rfl
  starts := rfl
  ends := rfl
  spaced := .singleton _
  exact_ := ⟨line.text, placed.sliced, placed.trimmed⟩

/-- A fragment that goes on to the end of the next line shows that line too. -/
theorem ShowsLines.extend (shown : ShowsLines document fragment group) (placed : line.Placed document)
    (same : fragment.blockId = line.blockId) (after : fragment.finish ≤ line.start)
    {gap : List Char} (space : blank gap = true)
    (between : document.slice ⟨fragment.blockId, fragment.finish, line.start⟩ = some gap) :
    ShowsLines document { fragment with finish := line.finish } (group ++ [line]) where
  own := by
    intro other mem
    rcases List.mem_append.mp mem with old | new
    · exact shown.own other old
    · rw [List.mem_singleton.mp new]
      exact same.symm
  starts := by
    have nonempty : group ≠ [] := by
      rintro rfl
      cases shown.starts
    rw [List.head?_append_of_ne_nil _ nonempty]
    exact shown.starts
  ends := by simp
  spaced := by
    rw [List.isChain_append]
    refine ⟨shown.spaced, .singleton _, ?_⟩
    intro last last_mem next next_mem
    obtain rfl := Option.some.inj next_mem
    have ends := shown.ends
    rw [last_mem, Option.map_some, Option.some.injEq] at ends
    rw [ends]
    exact ⟨after, gap, between, space⟩
  exact_ := by
    obtain ⟨text, sliced, trimmed⟩ := shown.exact_
    obtain ⟨block, found, first⟩ := slice_eq_some.mp sliced
    obtain ⟨block', found', middle⟩ := slice_eq_some.mp between
    obtain ⟨block'', found'', last⟩ := slice_eq_some.mp placed.sliced
    rw [found, Option.some.injEq] at found'
    have found'' : document.findBlock fragment.blockId = some block'' := same ▸ found''
    rw [found, Option.some.injEq] at found''
    subst found'
    subst found''
    refine ⟨text ++ (gap ++ line.text), ?_, trimmed.append placed.trimmed⟩
    exact slice_eq_some.mpr ⟨block, found, byteSlice_append first (byteSlice_append middle last)⟩

theorem Covers.start (cover : Covers document fragments lines) (placed : line.Placed document) :
    Covers document (fragments ++ [line.fragment]) (lines ++ [line]) := by
  obtain ⟨groups, rfl, shown⟩ := cover
  refine ⟨groups ++ [[line]], by simp, ?_⟩
  exact List.rel_append shown (.cons placed.shows .nil)

theorem Covers.last (cover : Covers document (front ++ [fragment]) lines) :
    ∃ earlier group, lines = earlier ++ group ∧ Covers document front earlier ∧
      ShowsLines document fragment group := by
  obtain ⟨groups, rfl, shown⟩ := cover
  have reversed := List.rel_reverse shown
  rw [List.reverse_append, List.reverse_singleton, List.singleton_append] at reversed
  cases whole : groups.reverse with
  | nil =>
      rw [whole] at reversed
      cases reversed
  | cons group rest =>
      rw [whole] at reversed
      obtain ⟨last, before⟩ := List.forall₂_cons.mp reversed
      have split : groups = rest.reverse ++ [group] := by
        rw [← List.reverse_reverse groups, whole, List.reverse_cons]
      refine ⟨rest.reverse.flatten, group, ?_, ⟨rest.reverse, rfl, ?_⟩, last⟩
      · rw [split, List.flatten_append, List.flatten_singleton]
      · have := List.rel_reverse before
        rwa [List.reverse_reverse] at this

/-- Appending a line to the last fragments keeps the cover, and never fails. -/
theorem appendFragment_covers (cover : Covers document (front ++ fragments) lines)
    (placed : line.Placed document) :
    ∃ appended, appendFragment document fragments line.fragment = some appended ∧
      appended ≠ [] ∧ Covers document (front ++ appended) (lines ++ [line]) := by
  have started : Covers document (front ++ (fragments ++ [line.fragment])) (lines ++ [line]) := by
    rw [← List.append_assoc]
    exact cover.start placed
  rcases List.eq_nil_or_concat fragments with rfl | ⟨before, last, rfl⟩
  · exact ⟨[line.fragment], rfl, nofun, started⟩
  · rw [List.concat_eq_append] at cover started ⊢
    rw [appendFragment, List.getLast?_concat]
    by_cases follows : last.blockId = line.fragment.blockId ∧ last.finish ≤ line.fragment.start
    · obtain ⟨same, after⟩ := follows
      rw [← List.append_assoc] at cover
      obtain ⟨earlier, group, rfl, shorter, shown⟩ := cover.last
      obtain ⟨text, sliced, -⟩ := shown.exact_
      obtain ⟨block, found, part⟩ := slice_eq_some.mp sliced
      obtain ⟨block', found', part'⟩ := slice_eq_some.mp placed.sliced
      rw [← same, found, Option.some.injEq] at found'
      subst found'
      obtain ⟨gap, between⟩ := byteSlice_of_boundaries (boundaries_of_slice part).2.1
        (boundaries_of_slice part').1 after
      have gap_slice : document.slice ⟨last.blockId, last.finish, line.fragment.start⟩ =
          some gap := slice_eq_some.mpr ⟨block, found, between⟩
      simp only [if_pos (And.intro same after), gap_slice, Option.map_some]
      cases space : blank gap with
      | true =>
          refine ⟨_, rfl, by simp, ?_⟩
          obtain ⟨groups, rfl, others⟩ := shorter
          refine ⟨groups ++ [group ++ [line]], by simp, ?_⟩
          rw [if_pos rfl, List.dropLast_concat, ← List.append_assoc]
          exact List.rel_append others
            (.cons (shown.extend placed same after space gap_slice) .nil)
      | false => exact ⟨_, rfl, by simp, started⟩
    · exact ⟨_, if_neg follows, by simp, started⟩

end Covering

end DocumentSummarizer.Pipeline
