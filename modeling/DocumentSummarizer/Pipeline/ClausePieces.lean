import DocumentSummarizer.Library.OptionSequence
import DocumentSummarizer.Pipeline.ClauseContext
import DocumentSummarizer.Pipeline.FurnitureSafety
import DocumentSummarizer.Pipeline.SegmentCover

/-! # The pieces of a block

The pass cuts every retained range into pieces that lose nothing visible, and
gives each piece of a numbered clause to that clause as one of its fragments.
-/

namespace DocumentSummarizer.Pipeline

open Library Furniture

/-- Every index of the pass names a clause, and every piece of a clause is a fragment of it. -/
structure ClausePass.Sound (pass : ClausePass) : Prop where
  active : ∀ index ∈ pass.active, index < pass.clauses.length
  parents : ∀ index ∈ pass.parents, index < pass.clauses.length
  ancestors : ∀ clause ∈ pass.clauses, ∀ index ∈ clause.parents, index < pass.clauses.length
  fragments : ∀ piece ∈ pass.order, ∀ index ∈ piece.clause,
    ∃ clause, pass.clauses[index]? = some clause ∧ piece.text ∈ clause.fragments
  visible : ∀ piece ∈ pass.order, piece.text ≠ []

/-- The pieces stand in ranges that tile their block from a start to a finish. -/
def Pieces (block : NormalizedBlock) (start : Nat) (pieces : List ClausePiece) (finish : Nat) :
    Prop :=
  (∀ piece ∈ pieces, piece.blockId = block.blockId) ∧
    ∃ ranges, Tiles block.text.toList start ranges finish ∧
      List.Forall₂ (fun range piece =>
        byteSlice block.text.toList range.1 range.2 = some piece.text) ranges pieces

namespace Clauses

variable {unicode : Unicode} {block : NormalizedBlock} {pass next : ClausePass}
  {start middle finish : Nat} {pieces later : List ClausePiece}

theorem pieces_append (first : Pieces block start pieces middle)
    (second : Pieces block middle later finish) :
    Pieces block start (pieces ++ later) finish := by
  obtain ⟨own, ranges, tiles, slices⟩ := first
  obtain ⟨own', ranges', tiles', slices'⟩ := second
  refine ⟨?_, ranges ++ ranges', tiles.append (@BlankBetween.trans _) tiles',
    List.rel_append slices slices'⟩
  intro piece mem
  exact (List.mem_append.mp mem).elim (own piece) (own' piece)

theorem openClause_sound (sound : pass.Sound) (marker : List Char) :
    (openClause marker pass).Sound where
  active := by
    rintro index same
    obtain rfl := Option.some.inj same
    simp [openClause]
  parents := by
    intro index mem
    simp only [openClause, List.length_append, List.length_singleton] at mem ⊢
    rcases List.mem_append.mp mem with old | new
    · have := sound.parents index ((List.rdropWhile_prefix _ _).subset old)
      omega
    · rw [List.mem_singleton.mp new]
      omega
  ancestors := by
    intro clause mem index above
    simp only [openClause, List.length_append, List.length_singleton] at mem ⊢
    rcases List.mem_append.mp mem with old | new
    · have := sound.ancestors clause old index above
      omega
    · rw [List.mem_singleton.mp new] at above
      have := sound.parents index ((List.rdropWhile_prefix _ _).subset above)
      omega
  fragments := by
    intro piece mem index own
    obtain ⟨clause, stored, inside⟩ := sound.fragments piece mem index own
    refine ⟨clause, ?_, inside⟩
    rw [openClause, List.getElem?_append_left (List.getElem?_eq_some_iff.mp stored).1, stored]
  visible := sound.visible

section Giving

variable {clauses : List Clause} {active index : Nat} {text : List Char} {clause : Clause}

/-- What is stored before a fragment is added is stored after, with its fragments and parents. -/
theorem stored_modify (stored : clauses[index]? = some clause) :
    ∃ now, (clauses.modify active fun clause =>
        { clause with fragments := clause.fragments ++ [text] })[index]? = some now ∧
      now.parents = clause.parents ∧ clause.fragments ⊆ now.fragments ∧
      (index = active → text ∈ now.fragments) := by
  rw [List.getElem?_modify, stored]
  by_cases same : active = index
  · refine ⟨{ clause with fragments := clause.fragments ++ [text] }, by simp [same], rfl, ?_, ?_⟩
    · exact List.subset_append_left _ _
    · exact fun _ => List.mem_append_right _ List.mem_cons_self
  · refine ⟨clause, by simp [same], rfl, fun _ mem => mem, ?_⟩
    exact fun equal => absurd equal.symm same

theorem parents_of_modify {now : Clause} (mem : now ∈ clauses.modify active fun clause =>
    { clause with fragments := clause.fragments ++ [text] }) :
    ∃ clause ∈ clauses, now.parents = clause.parents := by
  obtain ⟨index, stored⟩ := List.mem_iff_getElem?.mp mem
  have inside := (List.getElem?_eq_some_iff.mp stored).1
  rw [List.length_modify] at inside
  have before := List.getElem?_eq_getElem inside
  obtain ⟨again, found, parents, -⟩ := @stored_modify _ active _ text _ before
  obtain rfl := Option.some.inj (stored.symm.trans found)
  exact ⟨_, List.mem_of_getElem? before, parents⟩

end Giving

theorem give_sound (sound : pass.Sound) {text : List Char} (visible : text ≠ []) :
    ClausePass.Sound { pass with
      clauses := match pass.active with
        | some index => pass.clauses.modify index fun clause =>
            { clause with fragments := clause.fragments ++ [text] }
        | none => pass.clauses
      order := pass.order ++ [⟨block.blockId, pass.active, text⟩] } := by
  cases given : pass.active with
  | none =>
      refine ⟨nofun, sound.parents, sound.ancestors, ?_, ?_⟩
      · intro piece mem index own
        rcases List.mem_append.mp mem with old | new
        · exact sound.fragments piece old index own
        · rw [List.mem_singleton.mp new] at own
          cases own
      · intro piece mem
        rcases List.mem_append.mp mem with old | new
        · exact sound.visible piece old
        · rwa [List.mem_singleton.mp new]
  | some active =>
      refine ⟨?_, ?_, ?_, ?_, ?_⟩
      · intro index mem
        rw [List.length_modify]
        exact sound.active index (given ▸ mem)
      · intro index mem
        rw [List.length_modify]
        exact sound.parents index mem
      · intro now mem index above
        obtain ⟨clause, clause_mem, parents⟩ := parents_of_modify mem
        rw [List.length_modify]
        exact sound.ancestors clause clause_mem index (parents ▸ above)
      · intro piece mem index own
        rcases List.mem_append.mp mem with old | new
        · obtain ⟨clause, stored, inside⟩ := sound.fragments piece old index own
          obtain ⟨now, found, -, kept, -⟩ := @stored_modify _ active _ text _ stored
          exact ⟨now, found, kept inside⟩
        · rw [List.mem_singleton.mp new] at own ⊢
          obtain rfl := Option.some.inj own
          have inside := sound.active active given
          obtain ⟨now, found, -, -, added⟩ := @stored_modify _ active _ text _
            (List.getElem?_eq_getElem inside)
          exact ⟨now, found, added rfl⟩
      · intro piece mem
        rcases List.mem_append.mp mem with old | new
        · exact sound.visible piece old
        · rwa [List.mem_singleton.mp new]

theorem append_spec (sound : pass.Sound) {text : List Char}
    (sliced : byteSlice block.text.toList start finish = some text) :
    ∃ next pieces, append block start finish pass = some next ∧ next.Sound ∧
      next.order = pass.order ++ pieces ∧ Pieces block start pieces finish := by
  rw [append, sliced, Option.map_some]
  dsimp only
  split
  next empty =>
    refine ⟨pass, [], rfl, sound, (List.append_nil _).symm,
      fun _ mem => absurd mem List.not_mem_nil, [], .done ⟨text, sliced, ?_⟩, .nil⟩
    apply blank_iff.mp
    rw [blank, empty]
    rfl
  next nonempty =>
    have visible : blank text = false := by
      rwa [blank, List.isEmpty_eq_false_iff]
    obtain ⟨before, inside, after⟩ := trimmedRange_spec sliced visible
    refine ⟨_, [⟨block.blockId, pass.active, trim text⟩], rfl, give_sound sound nonempty, rfl, ?_,
      [trimmedRange start text], ?_, .cons inside .nil⟩
    · intro piece mem
      rw [List.mem_singleton.mp mem]
    · exact .tile before ⟨_, inside, trimmed_trim visible⟩ (.done after)

theorem readLines_spec (sound : pass.Sound) {lines : List (List Char)} {held : List Char}
    (pending : byteSlice block.text.toList start middle = some held)
    (remaining : byteSlice block.text.toList middle finish = some lines.flatten) :
    ∃ last next pieces, readLines unicode block start pass (located middle lines) =
        some (last, next) ∧ next.Sound ∧ next.order = pass.order ++ pieces ∧
      Pieces block start pieces last ∧
      ∃ rest, byteSlice block.text.toList last finish = some rest := by
  induction lines generalizing start middle pass held with
  | nil =>
      refine ⟨start, pass, [], rfl, sound, (List.append_nil _).symm,
        ⟨fun _ mem => absurd mem List.not_mem_nil, [], .done ?_, .nil⟩, _,
        byteSlice_append pending remaining⟩
      exact blankBetween_self (boundaries_of_slice pending).1
  | cons line lines ih =>
      obtain ⟨here, later⟩ := byteSlice_split remaining
      rw [located, readLines]
      cases number unicode line with
      | none => exact ih sound (byteSlice_append pending here) later
      | some marker =>
          dsimp only
          rw [pending, Option.bind_eq_bind, Option.bind_some]
          split
          · exact ih (openClause_sound sound marker) (byteSlice_append pending here) later
          · obtain ⟨given, first, appended, given_sound, order, placed⟩ :=
              append_spec sound pending
            obtain ⟨last, next, pieces, read, next_sound, further, rest_placed, rest⟩ :=
              ih (openClause_sound given_sound marker) here later
            rw [appended, Option.bind_eq_bind, Option.bind_some, read]
            refine ⟨last, next, first ++ pieces, rfl, next_sound, ?_,
              pieces_append placed rest_placed, rest⟩
            rw [further, ← List.append_assoc, ← order]
            rfl

theorem readRange_spec (sound : pass.Sound) {range : Nat × Nat} {text : List Char}
    (sliced : byteSlice block.text.toList range.1 range.2 = some text) :
    ∃ next pieces, readRange unicode block pass range = some next ∧ next.Sound ∧
      next.order = pass.order ++ pieces ∧ Pieces block range.1 pieces range.2 := by
  obtain ⟨first, -, -⟩ := boundaries_of_slice sliced
  obtain ⟨last, given, front, read, given_sound, order, placed, rest, remains⟩ :=
    @readLines_spec unicode block pass _ _ range.2 sound (splitInclusive '\n' text) []
      (byteSlice_empty first) (by rwa [flatten_splitInclusive])
  obtain ⟨next, back, appended, next_sound, further, rest_placed⟩ :=
    append_spec given_sound remains
  refine ⟨next, front ++ back, ?_, next_sound, ?_, pieces_append placed rest_placed⟩
  · simp only [readRange, sliced, Option.bind_eq_bind, Option.bind_some, read, appended]
  · rw [further, order, List.append_assoc]

/-- The pieces of a block, range by range. -/
def BlockPieces (block : NormalizedBlock) (ranges : List (Nat × Nat))
    (pieces : List ClausePiece) : Prop :=
  ∃ parts, parts.flatten = pieces ∧
    List.Forall₂ (fun range part => Pieces block range.1 part range.2) ranges parts

theorem readRanges_spec (sound : pass.Sound) {ranges : List (Nat × Nat)}
    (sliced : ∀ range ∈ ranges, ∃ text,
      byteSlice block.text.toList range.1 range.2 = some text) :
    ∃ next pieces, ranges.foldlM (readRange unicode block) pass = some next ∧ next.Sound ∧
      next.order = pass.order ++ pieces ∧ BlockPieces block ranges pieces := by
  induction ranges generalizing pass with
  | nil => exact ⟨pass, [], rfl, sound, (List.append_nil _).symm, [], rfl, .nil⟩
  | cons range ranges ih =>
      obtain ⟨text, here⟩ := sliced range List.mem_cons_self
      obtain ⟨given, first, read, given_sound, order, placed⟩ := readRange_spec sound here
      obtain ⟨next, pieces, others, next_sound, further, parts, rfl, each⟩ :=
        ih given_sound fun range mem => sliced range (List.mem_cons_of_mem _ mem)
      refine ⟨next, first ++ parts.flatten, ?_, next_sound, ?_, first :: parts, rfl,
        .cons placed each⟩
      · rw [List.foldlM_cons, read, Option.bind_eq_bind, Option.bind_some, others]
      · rw [further, order, List.append_assoc]

/-- The pass over the blocks never fails; the pieces of a block are those of its ranges. -/
theorem readBlocks_spec (sound : pass.Sound) {furniture : Furniture}
    {blocks : List NormalizedBlock} {ranges : NormalizedBlock → List (Nat × Nat)}
    (retained : ∀ block ∈ blocks, furniture.retainedRanges block.blockId = some (ranges block))
    (sliced : ∀ block ∈ blocks, ∀ range ∈ ranges block, ∃ text,
      byteSlice block.text.toList range.1 range.2 = some text) :
    ∃ next parts, blocks.foldlM (readBlock unicode furniture) pass = some next ∧ next.Sound ∧
      next.order = pass.order ++ parts.flatten ∧
      List.Forall₂ (fun block part => BlockPieces block (ranges block) part) blocks parts := by
  induction blocks generalizing pass with
  | nil => exact ⟨pass, [], rfl, sound, (List.append_nil _).symm, .nil⟩
  | cons block blocks ih =>
      obtain ⟨given, first, read, given_sound, order, placed⟩ :=
        readRanges_spec sound (sliced block List.mem_cons_self)
      obtain ⟨next, parts, others, next_sound, further, each⟩ :=
        ih given_sound (fun block mem => retained block (List.mem_cons_of_mem _ mem))
          fun block mem => sliced block (List.mem_cons_of_mem _ mem)
      have here : readBlock unicode furniture pass block = some given := by
        rw [readBlock, retained block List.mem_cons_self, Option.bind_eq_bind, Option.bind_some,
          read]
      refine ⟨next, first :: parts, ?_, next_sound, ?_, .cons placed each⟩
      · rw [List.foldlM_cons, here, Option.bind_eq_bind, Option.bind_some, others]
      · rw [further, order, List.append_assoc, List.flatten_cons]

theorem blockPieces_own {ranges : List (Nat × Nat)} (h : BlockPieces block ranges pieces) :
    ∀ piece ∈ pieces, piece.blockId = block.blockId := by
  obtain ⟨parts, rfl, each⟩ := h
  intro piece mem
  obtain ⟨part, part_mem, inside⟩ := List.mem_flatten.mp mem
  obtain ⟨range, -, placed⟩ := forall₂_right_exists each part_mem
  exact placed.1 piece inside

end Clauses

end DocumentSummarizer.Pipeline
