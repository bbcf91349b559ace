import DocumentSummarizer.Pipeline.ClausePieces
import DocumentSummarizer.Pipeline.EarlierSegments

/-! # What the clauses of a block offer

The pieces of a block account for its retained text, and so do the segments that
stay offered: what is withheld as ambiguous is counted.
-/

namespace DocumentSummarizer.Pipeline

open Library Furniture

/-- The segments of several texts. -/
def allSegments (parts : List QuoteSegmentation) : QuoteSegmentation :=
  ⟨parts.flatMap (·.segments), (parts.map (·.omittedSourceUnits)).sum⟩

/-- The retained text of a block is accounted for: every tile lies in a retained range, and every
visible retained character in a tile. -/
structure BlockAccounts (text : List Char) (ranges : List (Nat × Nat)) (tiles : List AccountedTile)
    (result : QuoteSegmentation) : Prop where
  shown : ∀ tile ∈ tiles, ∀ quote, tile.shown = some quote →
    byteSlice text tile.range.1 tile.range.2 = some quote
  segments : tiles.filterMap (·.shown) = result.segments
  omitted : (tiles.filter (·.shown.isNone)).length = result.omittedSourceUnits
  within : ∀ tile ∈ tiles, ∃ range ∈ ranges, range.1 ≤ tile.range.1 ∧ tile.range.2 ≤ range.2
  ascending : tiles.Pairwise fun a b => a.range.1 < b.range.1 ∧ a.range.2 ≤ b.range.1
  covers : ∀ front c back, text = front ++ c :: back → isWhitespace c = false →
    (∃ range ∈ ranges, range.1 ≤ byteLength front ∧ byteLength front < range.2) →
    ∃ tile ∈ tiles, tile.range.1 ≤ byteLength front ∧
      byteLength front + c.utf8Size ≤ tile.range.2

section Accounting

variable {source part : List Char} {start finish : Nat} {tiles : List AccountedTile}
  {result : QuoteSegmentation}

theorem Accounts.placed (sliced : byteSlice source start finish = some part)
    (h : Accounts part 0 (byteLength part) tiles result) :
    ∃ tiles, Accounts source start finish tiles result := by
  obtain ⟨front, back, rfl, rfl, rfl⟩ := byteSlice_eq_some.mp sliced
  have lift : ∀ {a b : Nat} {inner : List Char}, byteSlice part a b = some inner →
      byteSlice (front ++ (part ++ back)) (byteLength front + a) (byteLength front + b) =
        some inner := by
    intro a b inner inside
    obtain ⟨before, after, rfl, rfl, rfl⟩ := byteSlice_eq_some.mp inside
    refine byteSlice_eq_some.mpr ⟨front ++ before, after ++ back, by simp,
      byteLength_append _ _, by rw [Nat.add_assoc]⟩
  refine ⟨tiles.map fun tile => ⟨(byteLength front + tile.range.1,
    byteLength front + tile.range.2), tile.shown⟩, ?_, ?_, ?_, ?_⟩
  · have moved := @Tiled.shift _ _ _ _ _ (BlankBetween (front ++ (part ++ back)))
      (TrimmedBetween (front ++ (part ++ back))) (byteLength front)
      (fun ⟨_, inside, blank⟩ => ⟨_, lift inside, blank⟩)
      (fun ⟨_, inside, trimmed⟩ => ⟨_, lift inside, trimmed⟩) h.tiled
    rw [List.map_map] at moved ⊢
    exact moved
  · intro tile mem quote same
    obtain ⟨old, old_mem, rfl⟩ := List.mem_map.mp mem
    exact lift (h.shown old old_mem quote same)
  · rw [List.filterMap_map]
    exact h.segments
  · rw [List.filter_map, List.length_map]
    exact h.omitted

theorem accounts_tiles {ranges : List (Nat × Nat)} {parts : List QuoteSegmentation}
    (tiled : Tiles source start ranges finish)
    (each : List.Forall₂ (fun range part => ∃ tiles,
      Accounts source range.1 range.2 tiles part) ranges parts) :
    ∃ tiles, Accounts source start finish tiles (allSegments parts) := by
  induction tiled generalizing parts with
  | done rest =>
      cases each
      exact ⟨[], .nothing rest⟩
  | tile before _ _ ih =>
      cases each with
      | cons first others =>
          obtain ⟨tiles, accounts⟩ := first
          obtain ⟨more, rest⟩ := ih others
          have joined := (accounts.append rest).after_gap before
          exact ⟨_, joined⟩

theorem BlockAccounts.nothing (text : List Char) : BlockAccounts text [] [] ⟨[], 0⟩ where
  shown := fun _ mem => absurd mem List.not_mem_nil
  segments := rfl
  omitted := rfl
  within := fun _ mem => absurd mem List.not_mem_nil
  ascending := .nil
  covers := by
    rintro front c back - - ⟨range, mem, -⟩
    exact absurd mem List.not_mem_nil

theorem BlockAccounts.cons {range : Nat × Nat} {ranges : List (Nat × Nat)}
    {later : List AccountedTile} {rest : QuoteSegmentation}
    (first : Accounts source range.1 range.2 tiles result)
    (others : BlockAccounts source ranges later rest)
    (before : ∀ other ∈ ranges, range.2 ≤ other.1) :
    BlockAccounts source (range :: ranges) (tiles ++ later)
      ⟨result.segments ++ rest.segments,
        result.omittedSourceUnits + rest.omittedSourceUnits⟩ where
  shown := by
    intro tile mem
    exact (List.mem_append.mp mem).elim (first.shown tile) (others.shown tile)
  segments := by
    rw [List.filterMap_append, first.segments, others.segments]
  omitted := by
    rw [List.filter_append, List.length_append, first.omitted, others.omitted]
  within := by
    intro tile mem
    rcases List.mem_append.mp mem with here | there
    · have inside := List.mem_map_of_mem (f := AccountedTile.range) here
      exact ⟨range, List.mem_cons_self,
        first.tiled.lower BlankBetween.le TrimmedBetween.le inside,
        first.tiled.upper BlankBetween.le TrimmedBetween.le inside⟩
    · obtain ⟨other, other_mem, inside⟩ := others.within tile there
      exact ⟨other, List.mem_cons_of_mem _ other_mem, inside⟩
  ascending := by
    refine List.pairwise_append.mpr ⟨first.pairwise, others.ascending, ?_⟩
    intro a a_mem b b_mem
    have inside := List.mem_map_of_mem (f := AccountedTile.range) a_mem
    have upper := first.tiled.upper BlankBetween.le TrimmedBetween.le inside
    have grows := (first.tiled.mem inside).lt
    obtain ⟨other, other_mem, lower, -⟩ := others.within b b_mem
    have := before other other_mem
    exact ⟨by omega, by omega⟩
  covers := by
    rintro front c back rfl visible ⟨other, mem, lower, upper⟩
    rcases List.mem_cons.mp mem with rfl | later_mem
    · obtain ⟨tile, tile_mem, inside⟩ := first.covers lower upper visible
      exact ⟨tile, List.mem_append_left _ tile_mem, inside⟩
    · obtain ⟨tile, tile_mem, inside⟩ :=
        others.covers front c back rfl visible ⟨other, later_mem, lower, upper⟩
      exact ⟨tile, List.mem_append_right _ tile_mem, inside⟩

/-- A tile whose segment is withheld is left out. -/
def AccountedTile.withhold (withheld : List Char → Bool) (tile : AccountedTile) : AccountedTile :=
  ⟨tile.range, tile.shown.filter (!withheld ·)⟩

theorem withhold_segments (withheld : List Char → Bool) (tiles : List AccountedTile) :
    (tiles.map (·.withhold withheld)).filterMap (·.shown) =
      (tiles.filterMap (·.shown)).filter (!withheld ·) := by
  rw [List.filterMap_map, List.filter_filterMap]
  rfl

theorem withhold_omitted (withheld : List Char → Bool) (tiles : List AccountedTile) :
    ((tiles.map (·.withhold withheld)).filter (·.shown.isNone)).length =
      (tiles.filter (·.shown.isNone)).length +
        ((tiles.filterMap (·.shown)).filter withheld).length := by
  induction tiles with
  | nil => rfl
  | cons tile tiles ih =>
      cases shown : tile.shown with
      | none =>
          simp only [AccountedTile.withhold] at ih
          simp [AccountedTile.withhold, shown, ih]
          omega
      | some quote =>
          simp only [AccountedTile.withhold] at ih
          cases kept : withheld quote with
          | false => simp [AccountedTile.withhold, shown, kept, ih]
          | true =>
              simp [AccountedTile.withhold, shown, kept, ih]
              omega

theorem BlockAccounts.withhold {text : List Char} {ranges : List (Nat × Nat)}
    (h : BlockAccounts text ranges tiles result) (withheld : List Char → Bool) :
    BlockAccounts text ranges (tiles.map (·.withhold withheld))
      ⟨result.segments.filter (!withheld ·),
        result.omittedSourceUnits + (result.segments.filter withheld).length⟩ where
  shown := by
    intro tile mem quote same
    obtain ⟨old, old_mem, rfl⟩ := List.mem_map.mp mem
    exact h.shown old old_mem quote (Option.filter_eq_some_iff.mp same).1
  segments := by rw [withhold_segments, h.segments]
  omitted := by rw [withhold_omitted, h.omitted, h.segments]
  within := by
    intro tile mem
    obtain ⟨old, old_mem, rfl⟩ := List.mem_map.mp mem
    exact h.within old old_mem
  ascending := by
    rw [List.pairwise_map]
    exact h.ascending
  covers := by
    intro front c back same visible retained
    obtain ⟨tile, mem, inside⟩ := h.covers front c back same visible retained
    exact ⟨tile.withhold withheld, List.mem_map_of_mem mem, inside⟩

end Accounting

/-! ## Pieces -/

namespace Clauses

variable {tables : SentenceTables} {version : String} {block : NormalizedBlock}
  {pieces : List ClausePiece} {start finish : Nat}

theorem pieceSegmentation_total (tables : SentenceTables) (version : String)
    (piece : ClausePiece) : ∃ part, pieceSegmentation tables version piece = some part := by
  unfold pieceSegmentation
  split
  · exact ⟨_, rfl⟩
  · obtain ⟨result, tiles, found, -⟩ :=
      quoteSegmentationForVersion_spec tables version piece.text
    exact ⟨result, found⟩

/-- A piece is offered whole or segmented, and accounted for either way. -/
theorem pieceSegmentation_accounts {piece : ClausePiece} {range : Nat × Nat}
    (sliced : byteSlice block.text.toList range.1 range.2 = some piece.text)
    (trimmed : Trimmed piece.text) {part : QuoteSegmentation}
    (found : pieceSegmentation tables version piece = some part) :
    ∃ tiles, Accounts block.text.toList range.1 range.2 tiles part := by
  unfold pieceSegmentation at found
  split at found
  · obtain rfl := Option.some.inj found
    have whole := accounts_slice sliced trimmed.blank_eq
    rwa [trimmed.trim_eq] at whole
  · obtain ⟨result, tiles, again, accounts, -⟩ :=
      quoteSegmentationForVersion_spec tables version piece.text
    obtain rfl := Option.some.inj (found.symm.trans again)
    exact accounts.placed sliced

theorem pieces_accounts (placed : Pieces block start pieces finish)
    {parts : List QuoteSegmentation}
    (found : pieces.mapM (pieceSegmentation tables version) = some parts) :
    ∃ tiles, Accounts block.text.toList start finish tiles (allSegments parts) := by
  obtain ⟨-, ranges, tiled, slices⟩ := placed
  apply accounts_tiles tiled
  have trimmed := fun range (mem : range ∈ ranges) => tiled.mem mem
  clear tiled
  induction slices generalizing parts with
  | nil =>
      obtain rfl := Option.some.inj found
      exact .nil
  | cons first others ih =>
      obtain ⟨part, further, here, later, rfl⟩ :=
        List.forall₂_cons_left_iff.mp (mapM_some_iff.mp found)
      obtain ⟨text, again, visible⟩ := trimmed _ List.mem_cons_self
      obtain rfl := Option.some.inj (first.symm.trans again)
      exact .cons (pieceSegmentation_accounts first visible here)
        (ih (mapM_some_iff.mpr later) fun range mem => trimmed range (List.mem_cons_of_mem _ mem))

theorem blockPieces_accounts {ranges : List (Nat × Nat)} (placed : BlockPieces block ranges pieces)
    (ordered : ranges.Pairwise fun a b => a.2 ≤ b.1) {parts : List QuoteSegmentation}
    (found : pieces.mapM (pieceSegmentation tables version) = some parts) :
    ∃ tiles, BlockAccounts block.text.toList ranges tiles (allSegments parts) := by
  obtain ⟨groups, rfl, each⟩ := placed
  induction each generalizing parts with
  | nil =>
      obtain rfl := Option.some.inj found
      exact ⟨[], .nothing _⟩
  | @cons range group ranges groups first others ih =>
      obtain ⟨before, ordered⟩ := List.pairwise_cons.mp ordered
      obtain ⟨front, here⟩ := @mapM_exists _ _ (pieceSegmentation tables version) group
        fun piece _ => pieceSegmentation_total tables version piece
      obtain ⟨back, later⟩ := @mapM_exists _ _ (pieceSegmentation tables version)
        groups.flatten fun piece _ => pieceSegmentation_total tables version piece
      have split : (group :: groups).flatten.mapM (pieceSegmentation tables version) =
          some (front ++ back) :=
        mapM_some_iff.mpr (List.rel_append (mapM_some_iff.mp here) (mapM_some_iff.mp later))
      obtain rfl := Option.some.inj (found.symm.trans split)
      obtain ⟨tiles, accounts⟩ := pieces_accounts first here
      obtain ⟨more, rest⟩ := ih ordered later
      refine ⟨tiles ++ more, ?_⟩
      have joined := BlockAccounts.cons accounts rest before
      simpa [allSegments] using joined

end Clauses

end DocumentSummarizer.Pipeline
