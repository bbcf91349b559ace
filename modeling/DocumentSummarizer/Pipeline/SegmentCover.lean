import DocumentSummarizer.Pipeline.SentenceUnits

/-! # Segments cover their block

Grouping joins neighbouring tiles and cutting divides them, so the units of a
block tile it whatever the sentences are.  Packing leaves out counted units only.
-/

namespace DocumentSummarizer.Pipeline

open Library

def SourceUnit.range (unit : SourceUnit) : Nat × Nat :=
  (unit.start, unit.finish)

variable {tables : SentenceTables} {source text : List Char} {start middle finish : Nat}

/-! ## Groups -/

theorem groupParagraphs_spec {previous : Nat × Nat} {rest : List (Nat × Nat)}
    (tiles : Tiles source start (previous :: rest) finish) :
    ∃ groups, groupParagraphs tables source previous rest = some groups ∧
      Tiles source start groups finish := by
  induction rest generalizing previous start with
  | nil => exact ⟨_, rfl, tiles⟩
  | cons next rest ih =>
      obtain ⟨before, before_slice, _⟩ := tiles.mem List.mem_cons_self
      obtain ⟨after, after_slice, _⟩ :=
        tiles.mem (List.mem_cons_of_mem _ List.mem_cons_self)
      obtain ⟨count, counted⟩ := @formFieldCount_total tables after
      obtain ⟨leads, decided⟩ := @leadIn_total tables before
      rw [groupParagraphs, before_slice, after_slice]
      simp only [Option.bind_eq_bind, Option.bind_some, formGroup, counted, Option.map_some,
        decided]
      split
      · exact ih (tiles.merge_first TrimmedBetween.merge)
      · cases tiles with
        | tile gap inside later =>
            obtain ⟨groups, found, tiled⟩ := ih later
            rw [found]
            exact ⟨_, rfl, .tile gap inside tiled⟩

theorem addUnit_spec {units : List SourceUnit} {unit : SourceUnit}
    (tiles : Tiles source start (units.map SourceUnit.range) middle)
    (before : BlankBetween source middle unit.start)
    (inside : TrimmedBetween source unit.start unit.finish)
    (after : BlankBetween source unit.finish finish) :
    ∃ all, addUnit tables source units unit = some all ∧
      Tiles source start (all.map SourceUnit.range) finish := by
  obtain ⟨text, sliced, -⟩ := id inside
  have added := @Tiled.concat _ _ _ _ _ _ (@BlankBetween.trans source) unit.range tiles before
    inside after
  rw [addUnit, sliced, Option.bind_eq_bind, Option.bind_some]
  cases final : units.getLast? with
  | none =>
      obtain rfl := List.getLast?_eq_none_iff.mp final
      exact ⟨_, rfl, added⟩
  | some last =>
      dsimp only
      split
      · refine ⟨_, rfl, ?_⟩
        have shape := List.dropLast_append_getLast? last final
        rw [← shape, List.map_append] at tiles
        rw [List.map_append]
        exact @Tiled.merge_last _ _ _ _ _ (@BlankBetween.trans source)
          (@TrimmedBetween.merge source) _ _ unit.range tiles before inside after
      · refine ⟨_, rfl, ?_⟩
        rw [List.map_append]
        exact added

theorem groupUnitsFrom_spec {group : Nat × Nat} {retained : List (Nat × Nat)}
    {units : List SourceUnit} {sentences : List Located}
    (tiles : Tiles source group.1 (units.map SourceUnit.range) start)
    (boundary : IsBoundary source group.2) (le : start ≤ group.2)
    (fronts : ∀ sentence ∈ sentences, IsBoundary text sentence.finish)
    (cuts : Cuts source group.2 start
      (sentences.map fun sentence => group.1 + sentence.finish)) :
    ∃ all tail, groupUnitsFrom tables source text group retained units start sentences =
        some (all, tail) ∧
      Tiles source group.1 (all.map SourceUnit.range) tail ∧ tail ≤ group.2 := by
  induction sentences generalizing units start with
  | nil => exact ⟨units, start, rfl, tiles, le⟩
  | cons sentence rest ih =>
      cases cuts with
      | cons here lower upper later =>
          have others := fun sentence mem => fronts sentence (List.mem_cons_of_mem _ mem)
          obtain ⟨front, front_slice⟩ := byteSlice_of_boundaries (isBoundary_zero text)
            (fronts sentence List.mem_cons_self) (Nat.zero_le _)
          obtain ⟨part, sliced⟩ :=
            byteSlice_of_boundaries (tiles_boundaries tiles).2 here lower
          obtain ⟨safe, decided, visible⟩ :=
            @sentenceBoundary_spec tables _ _ _ _ _ false sliced boundary upper
          rw [groupUnitsFrom, front_slice]
          simp only [Option.bind_eq_bind, Option.bind_some, decided]
          split
          · exact ih tiles le others (later.weaken lower)
          next cut =>
            obtain ⟨unit, found, shape⟩ := trimmedUnit_spec sliced
            have shown := visible (by simpa using (not_or.mp cut).1)
            rw [shown, if_neg Bool.false_ne_true] at shape
            obtain ⟨all, added, added_tiles⟩ :=
              @addUnit_spec tables _ _ _ _ _ ⟨unit.1, unit.2, true⟩ tiles shape.1 shape.2.1
                shape.2.2
            simp only [found, Option.bind_some, added]
            exact ih added_tiles upper others later

/-- The sentences of a group and what is left of it. -/
theorem cutGroup_spec {group : Nat × Nat}
    (sliced : byteSlice source group.1 group.2 = some text) :
    ∃ units, (do
        let retained ← retainedProseRanges tables text
        let (units, start) ← groupUnitsFrom tables source text group retained [] group.1
          (located 0 (tables.sentences text))
        let left ← byteSlice source start group.2
        if blank left then
          return units
        else
          let tail ← trimmedUnit source start group.2
          addUnit tables source units ⟨tail.1, tail.2, false⟩) = some units ∧
      Tiles source group.1 (units.map SourceUnit.range) group.2 := by
  obtain ⟨first, last, le⟩ := boundaries_of_slice sliced
  obtain ⟨retained, kept⟩ := @retainedProseRanges_total tables text
  have fronts : Cuts text (byteLength text) 0
      ((located 0 (tables.sentences text)).map fun sentence => 0 + sentence.finish) :=
    slice_cuts (byteSlice_whole text) (tables.sentences_flatten text) rfl
  obtain ⟨units, tail, found, tiles, bounded⟩ :=
    @groupUnitsFrom_spec tables source text group.1 group retained [] _
      (.done (blankBetween_self first)) last le
      (fun sentence mem => fronts.boundary (by
        simpa using List.mem_map_of_mem (f := fun s : Located => 0 + s.finish) mem))
      (slice_cuts sliced (tables.sentences_flatten text) (Nat.add_zero _))
  obtain ⟨left, remains⟩ := byteSlice_of_boundaries (tiles_boundaries tiles).2 last bounded
  simp only [kept, Option.bind_eq_bind, Option.bind_some, found, remains]
  split
  next empty =>
    refine ⟨_, rfl, ?_⟩
    have ended := tiles.append (@BlankBetween.trans source)
      (.done ⟨_, remains, blank_iff.mp empty⟩)
    rwa [List.append_nil] at ended
  next visible =>
    obtain ⟨unit, trimmed, shape⟩ := trimmedUnit_spec remains
    rw [if_neg visible] at shape
    rw [trimmed]
    exact @addUnit_spec tables _ _ _ _ _ ⟨unit.1, unit.2, false⟩ tiles shape.1 shape.2.1
      shape.2.2

theorem groupUnits_spec {group : Nat × Nat} (whole : TrimmedBetween source group.1 group.2) :
    ∃ units, groupUnits tables source group = some units ∧
      Tiles source group.1 (units.map SourceUnit.range) group.2 := by
  obtain ⟨text, sliced, -⟩ := id whole
  obtain ⟨first, last, le⟩ := boundaries_of_slice sliced
  have uncut : Tiles source group.1 ([⟨group.1, group.2, true⟩].map SourceUnit.range) group.2 :=
    .tile (blankBetween_self first) whole (.done (blankBetween_self last))
  have cut := @cutGroup_spec tables source text group sliced
  obtain ⟨fields, counted⟩ := @formFieldCount_total tables text
  obtain ⟨ends, decided, -⟩ :=
    @sentenceBoundary_spec tables _ _ _ _ _ false sliced last le_rfl
  rw [groupUnits]
  simp only [sliced, counted, Option.bind_eq_bind, Option.bind_some, decided]
  split
  · exact ⟨_, rfl, uncut⟩
  split
  · exact cut
  split
  · exact ⟨_, rfl, uncut⟩
  cases ends with
  | true => exact ⟨_, rfl, uncut⟩
  | false => exact cut

/-! ## Packing -/

/-- A tile, with the segment that shows it unless it is left out. -/
structure AccountedTile where
  range : Nat × Nat
  shown : Option (List Char)

/-- Every tile is a segment or is counted as omitted. -/
structure Accounts (source : List Char) (start finish : Nat) (tiles : List AccountedTile)
    (result : QuoteSegmentation) : Prop where
  tiled : Tiles source start (tiles.map (·.range)) finish
  shown : ∀ tile ∈ tiles, ∀ text, tile.shown = some text →
    byteSlice source tile.range.1 tile.range.2 = some text
  segments : tiles.filterMap (·.shown) = result.segments
  omitted : (tiles.filter (·.shown.isNone)).length = result.omittedSourceUnits

def Bounded (result : QuoteSegmentation) : Prop :=
  ∀ shown ∈ result.segments, shown.length ≤ maxAnalysisQuoteCharacters

section Accounting

variable {range : Nat × Nat} {tiles : List AccountedTile} {result : QuoteSegmentation}

theorem Accounts.nothing (gap : BlankBetween source start finish) :
    Accounts source start finish [] ⟨[], 0⟩ :=
  ⟨.done gap, fun _ mem => absurd mem List.not_mem_nil, rfl, rfl⟩

theorem Accounts.keep (gap : BlankBetween source start range.1)
    (inside : TrimmedBetween source range.1 range.2)
    (sliced : byteSlice source range.1 range.2 = some text)
    (rest : Accounts source range.2 finish tiles result) :
    Accounts source start finish (⟨range, some text⟩ :: tiles)
      ⟨text :: result.segments, result.omittedSourceUnits⟩ where
  tiled := .tile gap inside rest.tiled
  shown := by
    intro tile mem text same
    rcases List.mem_cons.mp mem with rfl | later
    · obtain rfl := Option.some.inj same
      exact sliced
    · exact rest.shown tile later text same
  segments := by
    rw [List.filterMap_cons, rest.segments]
  omitted := by
    rw [List.filter_cons_of_neg (by simp), rest.omitted]

theorem Accounts.omit (gap : BlankBetween source start range.1)
    (inside : TrimmedBetween source range.1 range.2)
    (rest : Accounts source range.2 finish tiles result) :
    Accounts source start finish (⟨range, none⟩ :: tiles)
      ⟨result.segments, result.omittedSourceUnits + 1⟩ where
  tiled := .tile gap inside rest.tiled
  shown := by
    intro tile mem text same
    rcases List.mem_cons.mp mem with rfl | later
    · cases same
    · exact rest.shown tile later text same
  segments := by
    rw [List.filterMap_cons, rest.segments]
  omitted := by
    rw [List.filter_cons_of_pos rfl, List.length_cons, rest.omitted]

theorem Bounded.nothing : Bounded ⟨[], 0⟩ :=
  fun _ mem => absurd mem List.not_mem_nil

theorem Bounded.cons (short : text.length ≤ maxAnalysisQuoteCharacters) (rest : Bounded result) :
    Bounded ⟨text :: result.segments, result.omittedSourceUnits⟩ := by
  intro shown mem
  rcases List.mem_cons.mp mem with rfl | later
  · exact short
  · exact rest shown later

end Accounting

theorem packUnits_spec {packed : Option (Nat × Nat)} {units : List SourceUnit}
    (tiles : Tiles source start (packed.toList ++ units.map SourceUnit.range) finish)
    (fits : ∀ range ∈ packed, ∃ shown, byteSlice source range.1 range.2 = some shown ∧
      shown.length ≤ maxAnalysisQuoteCharacters) :
    ∃ result accounted, packUnits source packed units = some result ∧
      Accounts source start finish accounted result ∧ Bounded result := by
  induction units generalizing packed start with
  | nil =>
      rw [List.map_nil, List.append_nil] at tiles
      cases packed with
      | none =>
          cases tiles with
          | done rest => exact ⟨_, [], rfl, .nothing rest, .nothing⟩
      | some range =>
          obtain ⟨shown, slice, short⟩ := fits range rfl
          rw [packUnits, flush, slice]
          cases tiles with
          | tile gap inside rest =>
              cases rest with
              | done rest =>
                  exact ⟨_, _, rfl, .keep gap inside slice (.nothing rest),
                    Bounded.cons short .nothing⟩
  | cons unit rest ih =>
      obtain ⟨text, sliced, trimmed⟩ : TrimmedBetween source unit.start unit.finish :=
        tiles.mem (List.mem_append_right _ List.mem_cons_self)
      have unpacked : ∀ range ∈ (none : Option (Nat × Nat)), ∃ shown,
          byteSlice source range.1 range.2 = some shown ∧
          shown.length ≤ maxAnalysisQuoteCharacters :=
        fun _ none => absurd none (Option.not_mem_none _)
      rw [packUnits.eq_def]
      simp only [sliced, Option.bind_eq_bind, Option.bind_some]
      split
      next left_out =>
        cases packed with
        | none =>
            cases tiles with
            | tile gap inside later =>
                obtain ⟨result, accounted, found, accounts, bounded⟩ :=
                  @ih _ none later unpacked
                rw [flush, Option.bind_some, found]
                exact ⟨_, _, rfl, accounts.omit gap inside, bounded⟩
        | some range =>
            obtain ⟨shown, slice, short⟩ := fits range rfl
            cases tiles with
            | tile gap inside later =>
                cases later with
                | tile between out later =>
                    obtain ⟨result, accounted, found, accounts, bounded⟩ :=
                      @ih _ none later unpacked
                    rw [flush, slice, Option.map_some, Option.bind_some, found]
                    exact ⟨_, _, rfl, .keep gap inside slice (accounts.omit between out),
                      .cons short bounded⟩
      next kept =>
        have alone : ∀ range ∈ some unit.range, ∃ shown,
            byteSlice source range.1 range.2 = some shown ∧
            shown.length ≤ maxAnalysisQuoteCharacters := by
          rintro range same
          obtain rfl := Option.some.inj same
          exact ⟨text, sliced, Nat.le_of_not_lt (not_or.mp kept).2⟩
        cases packed with
        | none => exact ih tiles alone
        | some range =>
            have merged := tiles.merge_first (@TrimmedBetween.merge source)
            obtain ⟨whole, whole_slice, -⟩ := merged.mem List.mem_cons_self
            have whole_found : byteSlice source range.1 unit.finish = some whole := whole_slice
            dsimp only
            rw [whole_found, Option.bind_some]
            split
            next small =>
              apply ih merged
              rintro _ same
              obtain rfl := Option.some.inj same
              exact ⟨whole, whole_slice, small⟩
            next =>
              obtain ⟨shown, slice, short⟩ := fits range rfl
              cases tiles with
              | tile gap inside later =>
                  obtain ⟨result, accounted, found, accounts, bounded⟩ := ih later alone
                  rw [SourceUnit.range] at found
                  rw [flush, slice, Option.map_some, Option.bind_some, found]
                  exact ⟨_, _, rfl, .keep gap inside slice accounts, .cons short bounded⟩

/-! ## Blocks -/

theorem char_inside {front back part : List Char} {c : Char} {first last : Nat}
    (sliced : byteSlice (front ++ c :: back) first last = some part)
    (lower : first ≤ byteLength front) (upper : byteLength front < last) :
    c ∈ part ∧ byteLength front + c.utf8Size ≤ last := by
  obtain ⟨ahead, behind, same, rfl, rfl⟩ := byteSlice_eq_some.mp sliced
  obtain ⟨middle, rfl, rest⟩ := front_of_le same.symm lower
  rw [byteLength_append] at upper
  obtain ⟨held, rfl, tail⟩ := front_of_le rest.symm (by omega)
  cases held with
  | nil =>
      rw [List.append_nil] at upper
      omega
  | cons d held =>
      obtain ⟨rfl, -⟩ := List.cons.inj tail
      refine ⟨List.mem_append_right _ List.mem_cons_self, ?_⟩
      simp only [byteLength_append, byteLength_cons]
      omega

theorem accounts_slice (sliced : byteSlice source start finish = some text)
    (visible : blank text = false) :
    ∃ tiles, Accounts source start finish tiles ⟨[trim text], 0⟩ := by
  obtain ⟨before, inside, after⟩ := trimmedRange_spec sliced visible
  exact ⟨_, Accounts.keep before ⟨_, inside, trimmed_trim visible⟩ inside (.nothing after)⟩

theorem accounts_blank (empty : blank source = true) :
    Accounts source 0 (byteLength source) [] ⟨[], 0⟩ :=
  .nothing ⟨source, byteSlice_whole source, blank_iff.mp empty⟩

theorem grouped_spec (tables : SentenceTables) {source : List Char} {ranges : List (Nat × Nat)}
    (tiles : Tiles source 0 ranges (byteLength source)) :
    ∃ groups, (match ranges with
      | [] => some []
      | first :: rest => groupParagraphs tables source first rest) = some groups ∧
        Tiles source 0 groups (byteLength source) := by
  cases ranges with
  | nil => exact ⟨[], rfl, tiles⟩
  | cons first rest => exact groupParagraphs_spec tiles

/-- A short block is offered whole, and a long one in the segments of its units. -/
theorem segment_spec (tables : SentenceTables) (source : List Char) :
    ∃ result tiles, segment tables source = some result ∧
      Accounts source 0 (byteLength source) tiles result ∧ Bounded result := by
  rw [segment]
  split
  next short =>
    by_cases empty : trim source = []
    · rw [if_pos empty]
      refine ⟨_, [], rfl, accounts_blank ?_, .nothing⟩
      rw [blank, empty]
      rfl
    · rw [if_neg empty]
      have visible : blank source = false := by
        rwa [blank, List.isEmpty_eq_false_iff]
      obtain ⟨tiles, accounts⟩ := accounts_slice (byteSlice_whole source) visible
      refine ⟨_, tiles, rfl, accounts, ?_⟩
      intro shown mem
      rw [List.mem_singleton.mp mem]
      exact short
  next =>
    obtain ⟨ranges, read, tiles⟩ := paragraphs_spec source
    obtain ⟨groups, joined, group_tiles⟩ := grouped_spec tables tiles
    obtain ⟨parts, cut⟩ := @mapM_exists _ _ (groupUnits tables source) groups
      fun group mem => (groupUnits_spec (group_tiles.mem mem)).imp fun _ found => found.1
    have each : List.Forall₂ (fun group part => Tiles source group.1 part group.2) groups
        (parts.map (·.map SourceUnit.range)) := by
      have held := (List.forall₂_and_left groups parts).mpr
        ⟨fun group mem => group_tiles.mem mem, mapM_some_iff.mp cut⟩
      rw [List.forall₂_map_right_iff]
      apply held.imp
      rintro group units ⟨whole, found⟩
      obtain ⟨same, again, unit_tiles⟩ := @groupUnits_spec tables source group whole
      obtain rfl := Option.some.inj (found.symm.trans again)
      exact unit_tiles
    have unit_tiles := group_tiles.flatten (@BlankBetween.trans source) each
    rw [← List.map_flatten] at unit_tiles
    obtain ⟨result, accounted, packed, rest⟩ :=
      @packUnits_spec source 0 _ none parts.flatten unit_tiles
        (fun _ none => absurd none (Option.not_mem_none _))
    refine ⟨result, accounted, ?_, rest⟩
    rw [read, Option.bind_eq_bind, Option.bind_some]
    cases ranges with
    | nil =>
        obtain rfl := Option.some.inj joined
        simpa [cut] using packed
    | cons first others =>
        dsimp only at joined ⊢
        simp only [joined, Option.bind_eq_bind, Option.bind_some, cut, packed]

/-- A segment stands in its range, trimmed and within the bound. -/
structure Offered (source : List Char) (range : Nat × Nat) (shown : List Char) : Prop where
  slice : byteSlice source range.1 range.2 = some shown
  trimmed : Trimmed shown
  bounded : shown.length ≤ maxAnalysisQuoteCharacters

namespace Accounts

variable {tiles : List AccountedTile} {result : QuoteSegmentation}

theorem pairwise (h : Accounts source start finish tiles result) :
    tiles.Pairwise fun a b => a.range.1 < b.range.1 ∧ a.range.2 ≤ b.range.1 := by
  have apart := List.pairwise_map.mp
    (h.tiled.pairwise (fun blank => blank.le) (fun trimmed => trimmed.le))
  apply apart.imp_of_mem
  intro a b a_mem _ before
  have grows := (h.tiled.mem (List.mem_map_of_mem a_mem)).lt
  exact ⟨grows.trans_le before, before⟩

theorem covers {front back : List Char} {c : Char}
    (h : Accounts (front ++ c :: back) start finish tiles result)
    (lower : start ≤ byteLength front) (upper : byteLength front < finish)
    (visible : isWhitespace c = false) :
    ∃ tile ∈ tiles, tile.range.1 ≤ byteLength front ∧
      byteLength front + c.utf8Size ≤ tile.range.2 := by
  rcases h.tiled.covers lower upper with ⟨range, mem, first, last⟩ | ⟨a, b, gap, first, last⟩
  · obtain ⟨tile, tile_mem, rfl⟩ := List.mem_map.mp mem
    obtain ⟨part, sliced, -⟩ := h.tiled.mem mem
    exact ⟨tile, tile_mem, first, (char_inside sliced first last).2⟩
  · obtain ⟨part, sliced, blank⟩ := gap
    rw [blank c (char_inside sliced first last).1] at visible
    cases visible

/-- The ranges of the tiles that are shown. -/
theorem offered (h : Accounts source start finish tiles result) (bounded : Bounded result) :
    List.Forall₂ (Offered source)
      ((tiles.filter (·.shown.isSome)).map (·.range)) result.segments := by
  rw [Bounded, ← h.segments] at bounded
  rw [← h.segments]
  have sliced := h.shown
  have trimmed := fun tile (mem : tile ∈ tiles) =>
    h.tiled.mem (List.mem_map_of_mem (f := AccountedTile.range) mem)
  clear h
  induction tiles with
  | nil => exact .nil
  | cons tile tiles ih =>
      have further := fun tile mem => sliced tile (List.mem_cons_of_mem _ mem)
      have others := fun tile mem => trimmed tile (List.mem_cons_of_mem _ mem)
      cases shown : tile.shown with
      | none =>
          rw [List.filterMap_cons_none shown] at bounded ⊢
          rw [List.filter_cons_of_neg (by simp [shown])]
          exact ih bounded further others
      | some text =>
          rw [List.filterMap_cons_some shown] at bounded ⊢
          rw [List.filter_cons_of_pos (by simp [shown])]
          have here := sliced tile List.mem_cons_self text shown
          obtain ⟨part, again, visible⟩ := trimmed tile List.mem_cons_self
          obtain rfl := Option.some.inj (here.symm.trans again)
          exact .cons ⟨here, visible, bounded text List.mem_cons_self⟩
            (ih (fun text mem => bounded text (List.mem_cons_of_mem _ mem)) further others)

end Accounts

/-- What is offered of a block ascends through it, and everything visible is offered or in one
of the units that are counted as omitted. -/
theorem segment_accounts (tables : SentenceTables) (source : List Char) :
    ∃ result, segment tables source = some result ∧ ∃ ranges dropped : List (Nat × Nat),
      List.Forall₂ (Offered source) ranges result.segments ∧
      ranges.Pairwise (fun a b => a.1 < b.1 ∧ a.2 ≤ b.1) ∧
      result.omittedSourceUnits = dropped.length ∧
      (∀ front c back, source = front ++ c :: back → isWhitespace c = false →
        ∃ range ∈ ranges ++ dropped,
          range.1 ≤ byteLength front ∧ byteLength front + c.utf8Size ≤ range.2) ∧
      (result.omittedSourceUnits = 0 → ∀ front c back, source = front ++ c :: back →
        isWhitespace c = false → ∃ range ∈ ranges,
          range.1 ≤ byteLength front ∧ byteLength front + c.utf8Size ≤ range.2) := by
  obtain ⟨result, tiles, found, accounts, bounded⟩ := segment_spec tables source
  have counted : result.omittedSourceUnits =
      ((tiles.filter fun tile => tile.shown.isNone).map (·.range)).length := by
    rw [List.length_map]
    exact accounts.omitted.symm
  have covered : ∀ front c back, source = front ++ c :: back → isWhitespace c = false →
      ∃ range ∈ (tiles.filter fun tile => tile.shown.isSome).map (·.range) ++
        (tiles.filter fun tile => tile.shown.isNone).map (·.range),
        range.1 ≤ byteLength front ∧ byteLength front + c.utf8Size ≤ range.2 := by
    rintro front c back rfl visible
    have inside : byteLength front < byteLength (front ++ c :: back) := by
      have := c.utf8Size_pos
      rw [byteLength_append, byteLength_cons]
      omega
    obtain ⟨tile, mem, within⟩ := accounts.covers (Nat.zero_le _) inside visible
    refine ⟨tile.range, ?_, within⟩
    cases kept : tile.shown with
    | none => exact List.mem_append_right _ (List.mem_map_of_mem (by simp [mem, kept]))
    | some shown => exact List.mem_append_left _ (List.mem_map_of_mem (by simp [mem, kept]))
  refine ⟨result, found, _, _, accounts.offered bounded, ?_, counted, covered, ?_⟩
  · rw [List.pairwise_map]
    exact accounts.pairwise.filter _
  · intro none front c back split visible
    rw [none, eq_comm, List.length_eq_zero_iff] at counted
    simpa only [counted, List.append_nil] using covered front c back split visible

end DocumentSummarizer.Pipeline
