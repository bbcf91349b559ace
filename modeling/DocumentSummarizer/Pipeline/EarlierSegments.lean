import DocumentSummarizer.Pipeline.SegmentCover

/-! # Segments of the earlier versions

Every version of the segmentation accounts for its block: what is not a segment
is counted as omitted.
-/

namespace DocumentSummarizer.Pipeline

open Library

variable {tables : SentenceTables} {source text : List Char} {start middle finish : Nat}

section Accounting

variable {tiles later : List AccountedTile} {first second result : QuoteSegmentation}

theorem Accounts.append (front : Accounts source start middle tiles first)
    (back : Accounts source middle finish later second) :
    Accounts source start finish (tiles ++ later)
      ⟨first.segments ++ second.segments,
        first.omittedSourceUnits + second.omittedSourceUnits⟩ where
  tiled := by
    rw [List.map_append]
    exact front.tiled.append (@BlankBetween.trans source) back.tiled
  shown := by
    intro tile mem
    rcases List.mem_append.mp mem with old | new
    · exact front.shown tile old
    · exact back.shown tile new
  segments := by
    rw [List.filterMap_append, front.segments, back.segments]
  omitted := by
    rw [List.filter_append, List.length_append, front.omitted, back.omitted]

theorem Accounts.before_gap (h : Accounts source start middle tiles result)
    (gap : BlankBetween source middle finish) : Accounts source start finish tiles result := by
  have joined := h.append (.nothing gap)
  simpa using joined

theorem Accounts.after_gap (gap : BlankBetween source start middle)
    (h : Accounts source middle finish tiles result) :
    Accounts source start finish tiles result := by
  have joined := (Accounts.nothing gap).append h
  simpa using joined

end Accounting

/-! ## Whole sentences -/

theorem quoteSegmentsV13_spec (tables : SentenceTables) (source : List Char) :
    ∃ result tiles, quoteSegmentsV13 tables source = some result ∧
      Accounts source 0 (byteLength source) tiles result ∧ Bounded result := by
  obtain ⟨unit, found, shape⟩ := trimmedUnit_spec (byteSlice_whole source)
  rw [trimmedUnit, byteSlice_whole, Option.map_some] at found
  obtain rfl := Option.some.inj found
  simp only [Nat.zero_add] at shape
  unfold quoteSegmentsV13
  split at shape
  next empty =>
    dsimp only
    rw [if_pos (Nat.le_of_not_lt shape.2)]
    exact ⟨_, _, rfl, accounts_blank empty, .nothing⟩
  next visible =>
    obtain ⟨before, inside, after⟩ := shape
    obtain ⟨text, sliced, trimmed⟩ := id inside
    dsimp only
    rw [if_neg (Nat.not_le_of_lt inside.lt), sliced, Option.bind_eq_bind, Option.bind_some]
    split
    next short =>
      exact ⟨_, _, rfl, @Accounts.keep _ _ _ _ (_, _) _ _ before inside sliced (.nothing after),
        Bounded.cons short .nothing⟩
    next =>
      obtain ⟨units, tail, read, tiles, bounded⟩ := @sentenceUnitsV13_spec tables source
      have unit_tiles : Tiles source 0
          (none.toList ++ (units.map fun unit : Nat × Nat =>
            (⟨unit.1, unit.2, true⟩ : SourceUnit)).map SourceUnit.range) tail := by
        simpa [SourceUnit.range, Function.comp_def] using tiles
      obtain ⟨result, accounted, packed, accounts, short⟩ :=
        packUnits_spec unit_tiles fun _ none => absurd none (Option.not_mem_none _)
      obtain ⟨_, ended, _⟩ := boundaries_of_slice sliced
      obtain ⟨left, remains⟩ :=
        byteSlice_of_boundaries (tiles_boundaries tiles).2 ended bounded
      simp only [read, Option.bind_eq_bind, Option.bind_some, packed, remains]
      split
      next blank_left =>
        have gap : BlankBetween source tail (byteLength source) :=
          BlankBetween.trans ⟨_, remains, blank_iff.mp blank_left⟩ after
        exact ⟨_, accounted, rfl, accounts.before_gap gap, short⟩
      next visible_left =>
        obtain ⟨rest, -, shape⟩ := trimmedUnit_spec remains
        rw [if_neg visible_left] at shape
        have counted := accounts.append
          ((Accounts.nothing (shape.2.2.trans after)).omit shape.1 shape.2.1)
        rw [List.append_nil] at counted
        exact ⟨⟨result.segments, result.omittedSourceUnits + 1⟩, _, rfl, counted, short⟩

/-! ## Bounded pieces -/

theorem trim_length_le (text : List Char) : (trim text).length ≤ text.length := by
  obtain ⟨front, back, whole, -⟩ := trim_split text
  have size := congrArg List.length whole
  rw [List.length_append, List.length_append] at size
  omega

/-- A preferred boundary lies behind some of the text. -/
theorem preferredQuoteBoundary_spec {index offset : Nat} {preferred : Option Nat} {found : Nat}
    (h : preferredQuoteBoundary index offset preferred text = some found) :
    preferred = some found ∨ ∃ front back, text = front ++ back ∧
      found = offset + byteLength front := by
  induction text generalizing index offset preferred with
  | nil => exact .inl h
  | cons c rest ih =>
      rcases ih h with here | ⟨front, back, rfl, rfl⟩
      · split at here
        · exact .inl here
        split at here
        · obtain rfl := Option.some.inj here
          exact .inr ⟨[c], rest, rfl, by simp⟩
        split at here
        · obtain rfl := Option.some.inj here
          exact .inr ⟨[], c :: rest, rfl, rfl⟩
        · exact .inl here
      · exact .inr ⟨c :: front, back, rfl, by rw [byteLength_cons, Nat.add_assoc]⟩

/-- The place to cut what remains lies behind a first bounded part of it. -/
theorem cut_spec (visible : text ≠ []) :
    ∃ front back, text = front ++ back ∧ front ≠ [] ∧
      front.length ≤ maxAnalysisQuoteCharacters ∧
      (if text.length ≤ maxAnalysisQuoteCharacters then
          byteLength (text.take maxAnalysisQuoteCharacters)
        else ((preferredQuoteBoundary 0 0 none (text.take maxAnalysisQuoteCharacters)).filter
          (0 < ·)).getD (byteLength (text.take maxAnalysisQuoteCharacters))) =
        byteLength front := by
  have hard : ∃ front back, text = front ++ back ∧ front ≠ [] ∧
      front.length ≤ maxAnalysisQuoteCharacters ∧
      byteLength (text.take maxAnalysisQuoteCharacters) = byteLength front := by
    refine ⟨text.take maxAnalysisQuoteCharacters, text.drop maxAnalysisQuoteCharacters,
      (List.take_append_drop _ _).symm, ?_, List.length_take_le _ _, rfl⟩
    simp [maxAnalysisQuoteCharacters, visible]
  split
  · exact hard
  cases preferred : (preferredQuoteBoundary 0 0 none
      (text.take maxAnalysisQuoteCharacters)).filter (0 < ·) with
  | none => exact hard
  | some found =>
      obtain ⟨chosen, positive⟩ := Option.filter_eq_some_iff.mp preferred
      obtain ⟨front, back, bounded, rfl⟩ :=
        (preferredQuoteBoundary_spec chosen).resolve_left nofun
      refine ⟨front, back ++ text.drop maxAnalysisQuoteCharacters, ?_, ?_, ?_, ?_⟩
      · rw [← List.append_assoc, ← bounded, List.take_append_drop]
      · rintro rfl
        simp at positive
      · have whole := congrArg List.length bounded
        have := List.length_take_le maxAnalysisQuoteCharacters text
        rw [List.length_append] at whole
        omega
      · rw [Nat.zero_add, Option.getD_some]

theorem quoteSegmentsV12From_spec {front back : List Char} {fuel : Nat}
    (enough : source.length ≤ fuel) :
    ∃ segments tiles, quoteSegmentsV12From fuel source = some segments ∧
      Accounts (front ++ (source ++ back)) (byteLength front)
        (byteLength front + byteLength source) tiles ⟨segments, 0⟩ ∧
      Bounded ⟨segments, 0⟩ := by
  induction fuel generalizing source front with
  | zero =>
      obtain rfl := List.length_eq_zero_iff.mp (Nat.le_zero.mp enough)
      refine ⟨[], [], rfl, .nothing ⟨[], ?_, fun _ mem => absurd mem List.not_mem_nil⟩, .nothing⟩
      exact byteSlice_middle front [] back
  | succ fuel ih =>
      have whole : source = source.takeWhile isWhitespace ++ trimStart source :=
        List.takeWhile_append_dropWhile.symm
      have leading : ∀ c ∈ source.takeWhile isWhitespace, isWhitespace c = true :=
        fun c mem => List.mem_takeWhile_imp mem
      rw [quoteSegmentsV12From]
      dsimp only
      split
      next empty =>
        refine ⟨[], [], rfl, .nothing ⟨source, byteSlice_middle front source back, ?_⟩, .nothing⟩
        rwa [whole, empty, List.append_nil]
      next visible =>
        obtain ⟨part, rest, remaining, nonempty, short, place⟩ := cut_spec visible
        have part_visible : blank part = false := by
          rw [Bool.eq_false_iff]
          intro empty
          obtain ⟨c, tail, rfl⟩ := List.exists_cons_of_ne_nil nonempty
          have first := List.head?_dropWhile_not isWhitespace source
          rw [← trimStart, remaining] at first
          simp only [List.cons_append, List.head?_cons] at first
          rw [blank_iff.mp empty c List.mem_cons_self] at first
          cases first
        have fewer : rest.length ≤ fuel := by
          have size := congrArg List.length whole
          have parts := congrArg List.length remaining
          have := List.length_pos_iff.mpr nonempty
          rw [List.length_append] at size parts
          omega
        have head_slice : byteSlice (trimStart source) 0 (byteLength part) = some part :=
          byteSlice_eq_some.mpr ⟨[], rest, remaining, rfl, Nat.zero_add _⟩
        have rest_slice : byteSlice (trimStart source) (byteLength part)
            (byteLength (trimStart source)) = some rest := by
          refine byteSlice_eq_some.mpr ⟨part, [], ?_, rfl, ?_⟩
          · rw [List.append_nil]
            exact remaining
          · rw [remaining, byteLength_append]
        obtain ⟨segments, tiles, found, accounts, bounded⟩ :=
          @ih rest (front ++ (source.takeWhile isWhitespace ++ part)) fewer
        have parts : front ++ (source ++ back) =
            front ++ (source.takeWhile isWhitespace ++ part) ++ (rest ++ back) := by
          nth_rewrite 1 [whole]
          rw [remaining]
          simp
        have size := congrArg byteLength whole
        rw [remaining] at size
        simp only [byteLength_append] at size
        have lead_slice : byteSlice (front ++ (source ++ back)) (byteLength front)
            (byteLength front + byteLength (source.takeWhile isWhitespace)) =
            some (source.takeWhile isWhitespace) := by
          refine byteSlice_eq_some.mpr ⟨front, part ++ (rest ++ back), ?_, rfl, rfl⟩
          rw [parts]
          simp
        have part_slice : byteSlice (front ++ (source ++ back))
            (byteLength front + byteLength (source.takeWhile isWhitespace))
            (byteLength (front ++ (source.takeWhile isWhitespace ++ part))) = some part := by
          refine byteSlice_eq_some.mpr
            ⟨front ++ source.takeWhile isWhitespace, rest ++ back, ?_, ?_, ?_⟩
          · rw [parts]
            simp
          · rw [byteLength_append]
          · simp [Nat.add_assoc]
        obtain ⟨here, shown⟩ := accounts_slice part_slice part_visible
        rw [← parts] at accounts
        have ended : byteLength (front ++ (source.takeWhile isWhitespace ++ part)) +
            byteLength rest = byteLength front + byteLength source := by
          simp only [byteLength_append]
          omega
        rw [ended] at accounts
        have nonblank : trim part ≠ [] := by
          rwa [blank, List.isEmpty_eq_false_iff] at part_visible
        rw [place, head_slice, Option.bind_some, rest_slice, Option.bind_some, found,
          Option.map_some, if_neg nonblank]
        exact ⟨_, _, rfl, (shown.append accounts).after_gap ⟨_, lead_slice, leading⟩,
          Bounded.cons ((trim_length_le part).trans short) bounded⟩

theorem quoteSegmentsV12_spec (source : List Char) :
    ∃ segments tiles, quoteSegmentsV12 source = some segments ∧
      Accounts source 0 (byteLength source) tiles ⟨segments, 0⟩ ∧ Bounded ⟨segments, 0⟩ := by
  obtain ⟨front, back, whole, -, leading, trailing⟩ := trim_split source
  have enough : (trim source).length ≤ source.length := trim_length_le source
  obtain ⟨segments, tiles, found, accounts, bounded⟩ :=
    @quoteSegmentsV12From_spec (trim source) front back source.length enough
  rw [← whole] at accounts
  have size := congrArg byteLength whole
  simp only [byteLength_append] at size
  have before : byteSlice source 0 (byteLength front) = some front :=
    byteSlice_eq_some.mpr ⟨[], trim source ++ back, whole, rfl, Nat.zero_add _⟩
  have after : byteSlice source (byteLength front + byteLength (trim source))
      (byteLength source) = some back := by
    refine byteSlice_eq_some.mpr ⟨front ++ trim source, [], ?_, byteLength_append _ _, ?_⟩
    · rwa [List.append_nil, List.append_assoc]
    · omega
  exact ⟨segments, tiles, found,
    (accounts.before_gap ⟨_, after, trailing⟩).after_gap ⟨_, before, leading⟩, bounded⟩

/-- Every version offers bounded segments and counts the tiles of the block that it leaves out. -/
theorem quoteSegmentationForVersion_spec (tables : SentenceTables) (version : String)
    (source : List Char) :
    ∃ result tiles, quoteSegmentationForVersion tables version source = some result ∧
      Accounts source 0 (byteLength source) tiles result ∧ Bounded result := by
  unfold quoteSegmentationForVersion
  split
  · exact segment_spec tables source
  split
  · exact quoteSegmentsV13_spec tables source
  · obtain ⟨segments, tiles, found, accounts, bounded⟩ := quoteSegmentsV12_spec source
    exact ⟨_, tiles, by rw [found]; rfl, accounts, bounded⟩

end DocumentSummarizer.Pipeline
