import DocumentSummarizer.Pipeline.FurnitureOrigins

/-! # Safe furniture

The retained ranges of a block are what its removed lines leave, and every
removed line has a reason that the document itself shows.
-/

namespace DocumentSummarizer.Pipeline

open Library

namespace Furniture

/-! ## What a reader sees -/

/-- Every byte of the line is in a range. -/
def Kept (ranges : List (Nat × Nat)) (line : Located) : Prop :=
  ∀ byte, line.start ≤ byte → byte < line.finish → ∃ range ∈ ranges, Inside byte range

/-- No byte of the line is in a range. -/
def Removed (ranges : List (Nat × Nat)) (line : Located) : Prop :=
  ∀ byte, line.start ≤ byte → byte < line.finish → ¬ ∃ range ∈ ranges, Inside byte range

/-- Ranges of a text that ascend apart from each other on character boundaries and leave out
whole lines only. -/
structure WholeLines (text : List Char) (ranges : List (Nat × Nat)) : Prop where
  ascending : ranges.Pairwise fun a b => a.2 ≤ b.1
  sliced : ∀ range ∈ ranges, range.1 < range.2 ∧ ∃ part, byteSlice text range.1 range.2 = some part
  lines : ∀ line ∈ locatedLines text, Kept ranges line ∨ Removed ranges line

/-- A visible character of the block is retained. -/
def RetainsText (ranges : List (Nat × Nat)) (block : NormalizedBlock) : Prop :=
  ∃ range ∈ ranges, ∃ text, byteSlice block.text.toList range.1 range.2 = some text ∧
    blank text = false

/-- A date line, with or without a counter, or a filing label. -/
def DateOrFiling (unicode : Unicode) (text : List Char) : Prop :=
  let words := splitWhitespace (normalizedText unicode text)
  filingLabel (normalizedText unicode text) = true ∨ dateLabel words = true ∨
    (words.head?.bind parseU32).any (0 < ·) = true ∧ dateLabel words.tail = true

section Recurrence

variable (unicode : Unicode) (document : NormalizedDocument) (policy : FurniturePolicy)

/-- The key of a candidate, when it has one, is found on as many pages as the candidate asks. -/
def Recurring (candidate : Candidate) : Prop :=
  ∀ key, candidate.key = some key → ∃ others : Finset Nat, candidate.minimumPages ≤ others.card ∧
    ∀ number ∈ others, ∃ page ∈ document.pages, page.pageNumber = number ∧
      ∃ block ∈ page.content, ∃ other,
        Origin unicode document policy page block other ∧ other.key = some key

/-- The reason why a line of a block was removed. -/
def Justified (page : NormalizedPage) (block : NormalizedBlock) (line : Located) : Prop :=
  ∃ candidate, Origin unicode document policy page block candidate ∧
    Recurring unicode document policy candidate ∧
    candidate.start ≤ line.start ∧ line.finish ≤ candidate.finish

/-- Furniture that removed nothing but what the document justifies. -/
structure Safe (furniture : Furniture) : Prop where
  ranges : ∀ page ∈ document.pages, ∀ block ∈ page.content, ∃ ranges,
    furniture.retainedRanges block.blockId = some ranges ∧
    WholeLines block.text.toList ranges ∧
    ∀ line ∈ linesOf block, Removed ranges line →
      Justified unicode document policy page block line ∧
      (policy = .runningMetadata → operative unicode line.text = true →
        DateOrFiling unicode line.text)
  excluded : ∀ number, number ∈ furniture.excludedPages ↔
    number ∈ document.nativePages ∧ ∃ page ∈ document.pages, page.pageNumber = number ∧
      ∀ block ∈ page.content, ∀ ranges, furniture.retainedRanges block.blockId = some ranges →
        ¬ RetainsText ranges block

end Recurrence

/-! ## Lines of an origin -/

section Origins

variable {unicode : Unicode} {document : NormalizedDocument} {policy : FurniturePolicy}
  {page : NormalizedPage} {block : NormalizedBlock} {candidate : Candidate}

/-- A candidate reaches from the start of a line of its block to the end of one. -/
theorem Origin.lines (h : Origin unicode document policy page block candidate) :
    candidate.blockId = block.blockId ∧ candidate.page = page.pageNumber ∧
      ∃ first ∈ linesOf block, ∃ last ∈ linesOf block, candidate.start = first.start ∧
        candidate.finish = last.finish ∧ candidate.start < candidate.finish := by
  cases h with
  | edgeNumber mem | filingHeader mem | row _ mem | label _ mem =>
      exact ⟨rfl, rfl, _, mem, _, mem, rfl, rfl, locatedLines_nonempty mem⟩
  | @notice front notice attached back first last lines final =>
      have first_mem : first ∈ linesOf block := by
        rw [lines]
        simp
      have last_inside := List.mem_of_getLast? final
      have last_mem : last ∈ linesOf block := by
        rw [lines]
        simp only [List.mem_append] at last_inside ⊢
        tauto
      refine ⟨rfl, rfl, first, first_mem, last, last_mem, rfl, rfl, ?_⟩
      have nonempty := locatedLines_nonempty last_mem
      have start := locatedLines_nonempty first_mem
      have ordered : (linesOf block).Pairwise fun a b => a.finish ≤ b.start :=
        locatedLines_pairwise
      rw [lines] at ordered
      have inner := (List.pairwise_append.mp (List.pairwise_append.mp ordered).2.1).1
      rw [List.cons_append] at inner last_inside
      rcases List.mem_cons.mp last_inside with rfl | later
      · exact nonempty
      · have := (List.pairwise_cons.mp inner).1 last later
        show first.start < last.finish
        omega

/-- A line of the block lies inside a candidate's range or apart from it. -/
theorem Origin.within_or_apart (h : Origin unicode document policy page block candidate)
    {line : Located} (mem : line ∈ linesOf block) :
    candidate.start ≤ line.start ∧ line.finish ≤ candidate.finish ∨
      line.finish ≤ candidate.start ∨ candidate.finish ≤ line.start := by
  obtain ⟨-, -, first, first_mem, last, last_mem, start, finish, -⟩ := h.lines
  have line_nonempty := locatedLines_nonempty mem
  have first_nonempty := locatedLines_nonempty first_mem
  have last_nonempty := locatedLines_nonempty last_mem
  rw [start, finish]
  rcases lines_apart first_mem mem with rfl | before | after
  · rcases lines_apart last_mem mem with rfl | before | after
    · exact .inl ⟨le_rfl, le_rfl⟩
    · exact .inr (.inr before)
    · exact .inl ⟨le_rfl, by omega⟩
  · rcases lines_apart last_mem mem with rfl | before | after
    · exact .inl ⟨by omega, le_rfl⟩
    · exact .inr (.inr before)
    · exact .inl ⟨by omega, by omega⟩
  · exact .inr (.inl after)

end Origins

/-! ## Operative words -/

section Operative

variable {unicode : Unicode} {document : NormalizedDocument} {policy : FurniturePolicy}
  {page : NormalizedPage} {block : NormalizedBlock}

theorem space_separates : (!unicode.isAlphanumeric ' ') = true := by
  rw [Unicode.isAlphanumeric, unicode.space_alphanumeric]
  rfl

theorem operative_iff {text : List Char} :
    operative unicode text = true ↔ ∃ word ∈ splitWhitespace text,
      ∃ piece ∈ splitWhere (!unicode.isAlphanumeric ·) (unicode.toLowercase word),
        piece ∈ operativeWords := by
  simp only [operative, normalizedText, toLowercase_joined, List.any_eq_true, decide_eq_true_eq]
  cases words : splitWhitespace text with
  | nil =>
      simp only [List.map_nil, joined, List.not_mem_nil, false_and, exists_false, iff_false]
      rintro ⟨piece, mem, listed⟩
      obtain rfl := List.mem_singleton.mp mem
      revert listed
      decide
  | cons word rest =>
      rw [splitWhere_joined space_separates (by simp)]
      simp only [List.mem_flatMap, List.mem_map]
      constructor
      · rintro ⟨piece, ⟨-, ⟨word, mem, rfl⟩, inside⟩, listed⟩
        exact ⟨word, mem, piece, inside, listed⟩
      · rintro ⟨word, mem, piece, inside, listed⟩
        exact ⟨piece, ⟨_, ⟨word, mem, rfl⟩, inside⟩, listed⟩

theorem operative_mono {text whole : List Char}
    (words : ∀ word ∈ splitWhitespace text, word ∈ splitWhitespace whole)
    (h : operative unicode text = true) : operative unicode whole = true := by
  obtain ⟨word, mem, rest⟩ := operative_iff.mp h
  exact operative_iff.mpr ⟨word, words word mem, rest⟩

/-- The characters of a page counter. -/
def counterChar (c : Char) : Bool :=
  c.isDigit || "page of/+".toList.contains c

theorem toString_counter (n : Nat) : ∀ c ∈ (toString n).toList, counterChar c = true := by
  intro c mem
  have digit : c.isDigit = true := by
    have digits : (toString n).toList = Nat.toDigits 10 n := by
      show (Nat.repr n).toList = _
      simp [Nat.repr]
    rw [digits] at mem
    exact Nat.isDigit_of_mem_toDigits (by decide) (by decide) mem
  rw [counterChar, digit, Bool.true_or]

theorem isPageNumber_chars {text : List Char} {number : Nat}
    (h : isPageNumber unicode text number = true) :
    ∀ c ∈ normalizedText unicode text, counterChar c = true := by
  have label : ∀ c ∈ "page ".toList, counterChar c = true :=
    List.all_eq_true.mp (by decide +kernel)
  have bare := toString_counter number
  unfold isPageNumber at h
  simp only at h
  split at h
  next exactly =>
    intro c mem
    rcases exactly with same | same
    · exact bare c (same ▸ mem)
    · rw [same] at mem
      rcases List.mem_append.mp mem with first | second
      · exact label c first
      · exact bare c second
  next =>
    obtain ⟨separator, separator_mem, accepted⟩ := List.any_eq_true.mp h
    obtain ⟨parts, found, accepted⟩ := (Option.any_eq_true _ _).mp accepted
    obtain ⟨same, total⟩ := Bool.and_eq_true_iff.mp accepted
    obtain ⟨value, parsed, -⟩ := (Option.any_eq_true _ _).mp total
    have separators : ∀ c ∈ separator, counterChar c = true := by
      have all : ([" of ".toList, " / ".toList, "/".toList].all fun separator =>
          separator.all counterChar) = true := by decide +kernel
      exact List.all_eq_true.mp (List.all_eq_true.mp all separator separator_mem)
    have rest : ∀ c ∈ (stripStart "page ".toList (normalizedText unicode text)).getD
        (normalizedText unicode text), counterChar c = true := by
      intro c mem
      rw [splitOnceText_spec found] at mem
      rcases List.mem_append.mp mem with first | later
      · rw [of_decide_eq_true same] at first
        exact bare c first
      · rcases List.mem_append.mp later with second | third
        · exact separators c second
        · rcases parseU32_chars parsed c third with rfl | digit
          · decide
          · rw [counterChar, digit, Bool.true_or]
    intro c mem
    cases stripped : stripStart "page ".toList (normalizedText unicode text) with
    | none =>
        rw [stripped] at rest
        exact rest c mem
    | some after =>
        rw [stripped] at rest
        rw [stripStart_spec stripped] at mem
        rcases List.mem_append.mp mem with first | second
        · exact label c first
        · exact rest c second

theorem isPageNumber_not_operative {text : List Char} {number : Nat}
    (h : isPageNumber unicode text number = true) : operative unicode text = false := by
  rw [Bool.eq_false_iff]
  intro acts
  obtain ⟨piece, mem, listed⟩ := List.any_eq_true.mp acts
  have chars : ∀ c ∈ piece, counterChar c = true := fun c inside =>
    isPageNumber_chars h c (splitWhere_subset mem c inside)
  have foreign : (operativeWords.all fun word => !word.all counterChar) = true := by
    decide +kernel
  have strange := List.all_eq_true.mp foreign piece (of_decide_eq_true listed)
  rw [List.all_eq_true.mpr chars] at strange
  cases strange

theorem blank_not_operative {text : List Char} (h : blank text = true) :
    operative unicode text = false := by
  rw [operative, normalizedText_of_blank h]
  rfl

/-- What the metadata grammar admits despite an operative word is a date or a filing label. -/
theorem metadataKey_operative {text key : List Char} {strong : Bool}
    (h : metadataKey unicode text = some (key, strong)) (acts : operative unicode text = true) :
    DateOrFiling unicode text := by
  unfold metadataKey at h
  simp only at h
  split at h
  next => cases h
  next =>
    split at h
    next filing => exact .inl filing
    next =>
      split at h
      next counted => exact .inr (.inr counted)
      next =>
        split at h
        next dated => exact .inr (.inl dated)
        next =>
          rw [if_pos (.inl acts)] at h
          cases h

theorem words_of_run {front run back : List Located} {line : Located}
    (lines : linesOf block = front ++ (run ++ back)) (mem : line ∈ run) :
    ∀ word ∈ splitWhitespace line.text, word ∈ splitWhitespace (run.flatMap (·.text)) := by
  have texts : splitInclusive '\n' block.text.toList =
      front.map (·.text) ++ (run.map (·.text) ++ back.map (·.text)) := by
    have h := congrArg (List.map Located.text) lines
    rw [linesOf, locatedLines, located_texts] at h
    simpa using h
  clear lines
  induction run generalizing front with
  | nil => exact absurd mem List.not_mem_nil
  | cons first rest ih =>
      have joins : splitWhitespace ((first :: rest).flatMap (·.text)) =
          splitWhitespace first.text ++ splitWhitespace (rest.flatMap (·.text)) := by
        cases rest with
        | nil => simp
        | cons second rest =>
            simp only [List.map_cons, List.cons_append] at texts
            obtain ⟨body, ends⟩ := splitInclusive_ends texts
            have newline : isWhitespace '\n' = true := by decide
            rw [List.flatMap_cons, ends, List.append_assoc, List.singleton_append,
              splitWhitespace_append newline, splitWhitespace_concat newline]
      intro word word_mem
      rw [joins]
      rcases List.mem_cons.mp mem with rfl | later
      · exact List.mem_append_left _ word_mem
      · apply List.mem_append_right
        apply @ih (front ++ [first]) later ?_ word word_mem
        rw [texts]
        simp

theorem mem_run {front run back : List Located} {first last line : Located}
    (lines : linesOf block = front ++ (run ++ back)) (head : run.head? = some first)
    (final : run.getLast? = some last) (mem : line ∈ linesOf block)
    (start : first.start ≤ line.start) (finish : line.finish ≤ last.finish) : line ∈ run := by
  have ordered : (linesOf block).Pairwise fun a b => a.finish ≤ b.start := locatedLines_pairwise
  have nonempty := locatedLines_nonempty mem
  have first_mem := List.mem_of_mem_head? head
  have last_mem := List.mem_of_getLast? final
  rw [lines] at ordered mem
  obtain ⟨-, inner, apart⟩ := List.pairwise_append.mp ordered
  rcases List.mem_append.mp mem with before | later
  · have := apart line before first (List.mem_append_left _ first_mem)
    omega
  · rcases List.mem_append.mp later with inside | after
    · exact inside
    · have := (List.pairwise_append.mp inner).2.2 last last_mem line after
      omega

/-- An operative line is removed only as a date or filing label of the running metadata, or as a
running label of the original policy. -/
theorem Origin.operative {candidate : Candidate} {line : Located}
    (h : Origin unicode document .runningMetadata page block candidate) (mem : line ∈ linesOf block)
    (start : candidate.start ≤ line.start) (finish : line.finish ≤ candidate.finish)
    (acts : operative unicode line.text = true) : DateOrFiling unicode line.text := by
  have alone : ∀ {other : Located}, other ∈ linesOf block → other.start ≤ line.start →
      line.finish ≤ other.finish → other = line := by
    intro other other_mem le ge
    have := locatedLines_nonempty other_mem
    have := locatedLines_nonempty mem
    rcases lines_apart other_mem mem with same | before | after
    · exact same
    · omega
    · omega
  cases h with
  | edgeNumber other_mem _ number =>
      rw [alone other_mem start finish] at number
      rw [isPageNumber_not_operative number] at acts
      cases acts
  | filingHeader other_mem _ _ header =>
      rw [alone other_mem start finish] at header
      unfold edgarHeader at header
      split at header
      · simp only [operative_trim, acts, Bool.not_true, Bool.and_false, Bool.false_and,
          Bool.false_eq_true] at header
      · cases header
  | row _ other_mem _ _ keyed =>
      rw [alone other_mem start finish] at keyed
      rcases keyed with ⟨strong, found⟩ | ⟨-, plain⟩
      · have dated := metadataKey_operative found ((operative_trim _).trans acts)
        simpa only [DateOrFiling, normalizedText_trim] using dated
      · rw [operative_trim, acts] at plain
        cases plain
  | label original => cases original
  | @notice front notice attached back first last lines final _ text _ _ counters =>
      have run : linesOf block = front ++ ((first :: notice ++ attached) ++ back) := lines
      have inside := mem_run run rfl final mem start finish
      rcases List.mem_append.mp inside with unit | counter
      · rw [List.append_assoc] at run
        have words := words_of_run run unit
        have whole := operative_mono words acts
        simp only [isNotice, whole, Bool.not_true, Bool.and_false, Bool.false_eq_true] at text
      · rcases counters line counter with empty | number
        · rw [blank_not_operative empty] at acts
          cases acts
        · rw [isPageNumber_not_operative number] at acts
          cases acts

end Operative

/-! ## The ranges of a block -/

section Ranges

variable {unicode : Unicode} {document : NormalizedDocument} {policy : FurniturePolicy}
  {page : NormalizedPage} {block : NormalizedBlock} {all : List Candidate}

theorem located_once (identified : document.Identified) {page other : NormalizedPage}
    {block copy : NormalizedBlock} (page_mem : page ∈ document.pages)
    (other_mem : other ∈ document.pages) (block_mem : block ∈ page.content)
    (copy_mem : copy ∈ other.content) (same : copy.blockId = block.blockId) :
    other = page ∧ copy = block := by
  have first : block ∈ document.blocks := List.mem_flatMap.mpr ⟨page, page_mem, block_mem⟩
  have second : copy ∈ document.blocks := List.mem_flatMap.mpr ⟨other, other_mem, copy_mem⟩
  obtain rfl := List.inj_on_of_nodup_map identified.blocks second first same
  refine ⟨?_, rfl⟩
  by_contra different
  have apart := (List.nodup_flatMap.mp (identified.blocks.of_map _)).2
  have symmetric : Std.Symm (Function.onFun List.Disjoint NormalizedPage.content) :=
    ⟨fun a b h => List.Disjoint.symm h⟩
  exact apart.forall other_mem page_mem different copy_mem block_mem

/-- The origins of all candidates of a document. -/
def Traced (unicode : Unicode) (document : NormalizedDocument) (policy : FurniturePolicy)
    (all : List Candidate) : Prop :=
  ∀ candidate ∈ all, ∃ page ∈ document.pages, ∃ block ∈ page.content,
    Origin unicode document policy page block candidate

theorem excluded_origin (identified : document.Identified) (page_mem : page ∈ document.pages)
    (block_mem : block ∈ page.content) (traced : Traced unicode document policy all)
    {range : Nat × Nat} (mem : range ∈ excludedRanges all block) :
    ∃ candidate ∈ all, Origin unicode document policy page block candidate ∧
      recurs all candidate = true ∧ range = (candidate.start, candidate.finish) := by
  obtain ⟨candidate, kept, rfl⟩ := List.mem_map.mp ((List.mem_insertionSort _).mp mem)
  obtain ⟨candidate_mem, own⟩ := List.mem_filter.mp kept
  obtain ⟨same, recurring⟩ := of_decide_eq_true own
  obtain ⟨other, other_mem, copy, copy_mem, origin⟩ := traced candidate candidate_mem
  have identity : copy.blockId = block.blockId := origin.lines.1.symm.trans same
  obtain ⟨rfl, rfl⟩ := located_once identified page_mem other_mem block_mem copy_mem identity
  exact ⟨candidate, candidate_mem, origin, recurring, rfl⟩

theorem excluded_ascending : (excludedRanges all block).Pairwise fun a b => a.1 ≤ b.1 := by
  have total : Std.Total RangeLe := ⟨by intro a b; simp only [RangeLe]; omega⟩
  have trans : IsTrans _ RangeLe := ⟨by intro a b c; simp only [RangeLe]; omega⟩
  apply (List.pairwise_insertionSort RangeLe _).imp
  intro a b le
  simp only [RangeLe] at le
  omega

/-- The ranges that `for_policy` retains of a block. -/
def blockRanges (all : List Candidate) (block : NormalizedBlock) : List (Nat × Nat) :=
  gaps (byteLength block.text.toList) 0 (excludedRanges all block)

theorem removed_within (identified : document.Identified) (page_mem : page ∈ document.pages)
    (block_mem : block ∈ page.content) (traced : Traced unicode document policy all)
    {line : Located} (mem : line ∈ linesOf block) (removed : Removed (blockRanges all block) line) :
    ∃ candidate ∈ all, Origin unicode document policy page block candidate ∧
      recurs all candidate = true ∧ candidate.start ≤ line.start ∧
      line.finish ≤ candidate.finish := by
  have nonempty := locatedLines_nonempty mem
  have bounded := locatedLines_le mem
  have outside := removed line.start le_rfl nonempty
  rw [blockRanges, inside_gaps (Nat.zero_le _) (by omega) excluded_ascending] at outside
  push Not at outside
  obtain ⟨range, range_mem, inside⟩ := outside
  obtain ⟨candidate, candidate_mem, origin, recurring, rfl⟩ :=
    excluded_origin identified page_mem block_mem traced range_mem
  refine ⟨candidate, candidate_mem, origin, recurring, ?_⟩
  have start := inside.1
  have finish := inside.2
  simp only at start finish
  rcases origin.within_or_apart mem with within | before | after
  · exact within
  · omega
  · omega

theorem blockRanges_wholeLines (identified : document.Identified)
    (page_mem : page ∈ document.pages) (block_mem : block ∈ page.content)
    (traced : Traced unicode document policy all) :
    WholeLines block.text.toList (blockRanges all block) := by
  have origins := @excluded_origin unicode document policy page block all identified page_mem
    block_mem traced
  have starts : ∀ range ∈ excludedRanges all block, range.1 ≤ byteLength block.text.toList := by
    intro range mem
    obtain ⟨candidate, -, origin, -, rfl⟩ := origins mem
    obtain ⟨-, -, first, first_mem, -, -, start, -⟩ := origin.lines
    have := locatedLines_le first_mem
    have := locatedLines_nonempty first_mem
    simp only [start]
    omega
  have ordered : ∀ range ∈ excludedRanges all block, range.1 ≤ range.2 := by
    intro range mem
    obtain ⟨candidate, -, origin, -, rfl⟩ := origins mem
    obtain ⟨-, -, -, -, -, -, -, -, less⟩ := origin.lines
    exact less.le
  have boundaries : ∀ range ∈ excludedRanges all block,
      IsBoundary block.text.toList range.1 ∧ IsBoundary block.text.toList range.2 := by
    intro range mem
    obtain ⟨candidate, -, origin, -, rfl⟩ := origins mem
    obtain ⟨-, -, first, first_mem, last, last_mem, start, finish, -⟩ := origin.lines
    simp only [start, finish]
    exact ⟨(boundaries_of_slice (locatedLines_slice first_mem)).1,
      (boundaries_of_slice (locatedLines_slice last_mem)).2.1⟩
  constructor
  · exact gaps_pairwise ordered
  · intro range mem
    have less := (gaps_bounds starts mem).1
    obtain ⟨left, right⟩ := gaps_ends mem
    refine ⟨less, byteSlice_of_boundaries ?_ ?_ less.le⟩
    · rcases left with zero | ⟨excluded, excluded_mem, same⟩
      · exact zero ▸ isBoundary_zero _
      · exact same ▸ (boundaries excluded excluded_mem).2
    · rcases right with whole | ⟨excluded, excluded_mem, same⟩
      · exact whole ▸ isBoundary_length _
      · exact same ▸ (boundaries excluded excluded_mem).1
  · intro line mem
    have bounded := locatedLines_le mem
    by_cases contained : ∃ range ∈ excludedRanges all block,
        range.1 ≤ line.start ∧ line.finish ≤ range.2
    · right
      obtain ⟨range, range_mem, start, finish⟩ := contained
      intro byte lower upper
      rw [blockRanges, inside_gaps (Nat.zero_le _) (by omega) excluded_ascending]
      exact fun outside => outside range range_mem ⟨by omega, by omega⟩
    · left
      intro byte lower upper
      rw [blockRanges, inside_gaps (Nat.zero_le _) (by omega) excluded_ascending]
      intro range range_mem inside
      obtain ⟨candidate, -, origin, -, rfl⟩ := origins range_mem
      have start := inside.1
      have finish := inside.2
      simp only at start finish
      rcases origin.within_or_apart mem with within | before | after
      · exact contained ⟨_, range_mem, within⟩
      · omega
      · omega

theorem recurring_of_recurs (traced : Traced unicode document policy all) {candidate : Candidate}
    (h : recurs all candidate = true) : Recurring unicode document policy candidate := by
  intro key keyed
  unfold recurs at h
  rw [keyed] at h
  refine ⟨keyPages all key, of_decide_eq_true h, ?_⟩
  intro number mem
  obtain ⟨other, kept, rfl⟩ := List.mem_map.mp (List.mem_toFinset.mp mem)
  obtain ⟨other_mem, same⟩ := List.mem_filter.mp kept
  obtain ⟨page, page_mem, block, block_mem, origin⟩ := traced other other_mem
  exact ⟨page, page_mem, origin.lines.2.1.symm, block, block_mem, other, origin,
    of_decide_eq_true same⟩

end Ranges

/-! ## The furniture -/

section Furniture

variable {unicode : Unicode} {document : NormalizedDocument} {policy : FurniturePolicy}
  {all : List Candidate}

theorem retainBlock_spec {block : NormalizedBlock}
    (whole : WholeLines block.text.toList (blockRanges all block)) :
    ∃ substantive, retainBlock all block = some (blockRanges all block, substantive) ∧
      (substantive = true ↔ RetainsText (blockRanges all block) block) := by
  obtain ⟨texts, sliced⟩ := mapM_exists fun range mem => (whole.sliced range mem).2
  obtain ⟨sound, complete⟩ := mapM_zip sliced
  refine ⟨texts.any (!blank ·), Option.bind_eq_some_iff.mpr ⟨texts, sliced, rfl⟩, ?_⟩
  rw [List.any_eq_true]
  constructor
  · rintro ⟨text, mem, visible⟩
    obtain ⟨range, range_mem, found⟩ := mapM_mem sliced mem
    exact ⟨range, range_mem, text, found, by simpa using visible⟩
  · rintro ⟨range, range_mem, text, found, visible⟩
    obtain ⟨text', pair_mem⟩ := complete range range_mem
    have same := (sound _ pair_mem).2
    simp only [found, Option.some.injEq] at same
    subst same
    exact ⟨text, (List.of_mem_zip pair_mem).2, by simpa using visible⟩

theorem retainPage_spec {page : NormalizedPage}
    (whole : ∀ block ∈ page.content, WholeLines block.text.toList (blockRanges all block)) :
    ∃ substantive, retainPage all page =
        some (page.content.map fun block => (block.blockId, blockRanges all block), substantive) ∧
      (substantive = true ↔
        ∃ block ∈ page.content, RetainsText (blockRanges all block) block) := by
  have each := fun block mem => retainBlock_spec (whole block mem)
  obtain ⟨blocks, computed⟩ := mapM_exists (f := retainBlock all) fun block mem =>
    ⟨_, (each block mem).choose_spec.1⟩
  have ranges : blocks.map (·.1) = page.content.map (blockRanges all) := by
    apply mapM_some_map computed
    intro block mem result found
    obtain ⟨substantive, same, -⟩ := each block mem
    rw [same] at found
    rw [← Option.some.inj found]
  refine ⟨blocks.any (·.2), ?_, ?_⟩
  · refine Option.bind_eq_some_iff.mpr ⟨blocks, computed, ?_⟩
    rw [ranges]
    rw [List.zip_map']
    rfl
  · obtain ⟨sound, complete⟩ := mapM_zip computed
    rw [List.any_eq_true]
    constructor
    · rintro ⟨result, mem, visible⟩
      obtain ⟨block, block_mem, found⟩ := mapM_mem computed mem
      obtain ⟨substantive, same, iff⟩ := each block block_mem
      rw [same] at found
      rw [← Option.some.inj found] at visible
      exact ⟨block, block_mem, iff.mp visible⟩
    · rintro ⟨block, block_mem, retains⟩
      obtain ⟨result, pair_mem⟩ := complete block block_mem
      obtain ⟨substantive, same, iff⟩ := each block block_mem
      have found : retainBlock all block = some result := (sound _ pair_mem).2
      rw [same] at found
      obtain rfl := Option.some.inj found
      exact ⟨_, (List.of_mem_zip pair_mem).2, iff.mpr retains⟩

/-- The furniture of an identified document exists, with the ranges of every block. -/
theorem forPolicy_spec (identified : document.Identified)
    (computed : candidates unicode document policy = some all)
    (traced : Traced unicode document policy all) :
    ∃ furniture, forPolicy unicode document policy = some furniture ∧
      (∀ block ∈ document.blocks,
        furniture.retainedRanges block.blockId = some (blockRanges all block)) ∧
      ∀ number, number ∈ furniture.excludedPages ↔
        number ∈ document.nativePages ∧ ∃ page ∈ document.pages, page.pageNumber = number ∧
          ∀ block ∈ page.content, ¬ RetainsText (blockRanges all block) block := by
  have each := fun page (page_mem : page ∈ document.pages) => retainPage_spec
    fun block block_mem => blockRanges_wholeLines identified page_mem block_mem traced
  obtain ⟨pages, retained⟩ := mapM_exists (f := retainPage all) fun page mem =>
    ⟨_, (each page mem).choose_spec.1⟩
  have entries : pages.flatMap (·.1) =
      document.blocks.map fun block => (block.blockId, blockRanges all block) := by
    have same : pages.map (·.1) = document.pages.map fun page =>
        page.content.map fun block => (block.blockId, blockRanges all block) := by
      apply mapM_some_map retained
      intro page mem result found
      obtain ⟨substantive, hit, -⟩ := each page mem
      rw [hit] at found
      rw [← Option.some.inj found]
    rw [NormalizedDocument.blocks, List.map_flatMap, List.flatMap_def, same, List.flatMap_def]
  obtain ⟨sound, complete⟩ := mapM_zip retained
  refine ⟨_, Option.bind_eq_some_iff.mpr ⟨all, computed,
    Option.bind_eq_some_iff.mpr ⟨pages, retained, rfl⟩⟩, ?_, ?_⟩
  · intro block mem
    apply lookup_of_mem
    · rw [List.map_reverse, List.nodup_reverse, entries, List.map_map]
      exact identified.blocks
    · rw [List.mem_reverse, entries]
      exact List.mem_map_of_mem mem
  · intro number
    rw [List.mem_toFinset, List.mem_filterMap]
    constructor
    · rintro ⟨⟨page, result⟩, pair_mem, chosen⟩
      simp only at chosen
      split at chosen
      next bare =>
        obtain rfl := Option.some.inj chosen
        obtain ⟨page_mem, found⟩ := sound _ pair_mem
        obtain ⟨substantive, hit, iff⟩ := each page page_mem
        simp only [hit, Option.some.injEq] at found
        refine ⟨bare.1, page, page_mem, rfl, fun block block_mem retains => ?_⟩
        have visible := iff.mpr ⟨block, block_mem, retains⟩
        rw [← found] at bare
        rw [visible] at bare
        cases bare.2
      next => cases chosen
    · rintro ⟨native, page, page_mem, rfl, bare⟩
      obtain ⟨result, pair_mem⟩ := complete page page_mem
      obtain ⟨-, found⟩ := sound _ pair_mem
      obtain ⟨substantive, hit, iff⟩ := each page page_mem
      simp only [hit, Option.some.injEq] at found
      refine ⟨(page, result), pair_mem, ?_⟩
      have none_visible : substantive = false := by
        rw [Bool.eq_false_iff]
        intro visible
        obtain ⟨block, block_mem, retains⟩ := iff.mp visible
        exact bare block block_mem retains
      rw [← found, none_visible]
      exact if_pos ⟨native, rfl⟩

/-- A warning can only name the exempted pages that the document itself shows. -/
theorem furnitureCoverageExclusions_spec (warnings : List PipelineWarning)
    {running original : Furniture}
    (first : forPolicy unicode document .runningMetadata = some running)
    (second : forPolicy unicode document .original = some original) :
    ∃ pages, furnitureCoverageExclusions unicode warnings document = some pages ∧
      (pages = ∅ ∨ pages = running.excludedPages ∨ pages = original.excludedPages) := by
  simp only [furnitureCoverageExclusions, first, second, bind, Option.bind_some]
  split
  · exact ⟨∅, rfl, .inl rfl⟩
  · split
    · exact ⟨_, rfl, .inr (.inl rfl)⟩
    · split
      · exact ⟨_, rfl, .inr (.inr rfl)⟩
      · exact ⟨∅, rfl, .inl rfl⟩

theorem furnitureCoverageExclusions_isSome (identified : document.Identified)
    (warnings : List PipelineWarning) :
    ∃ pages, furnitureCoverageExclusions unicode warnings document = some pages := by
  have computed : ∀ policy, ∃ furniture,
      forPolicy unicode document policy = some furniture := by
    intro policy
    obtain ⟨all, computed, traced⟩ := candidates_spec unicode document policy
    obtain ⟨furniture, found, -⟩ := forPolicy_spec identified computed traced
    exact ⟨furniture, found⟩
  obtain ⟨running, first⟩ := computed .runningMetadata
  obtain ⟨original, second⟩ := computed .original
  obtain ⟨pages, found, -⟩ := furnitureCoverageExclusions_spec warnings first second
  exact ⟨pages, found⟩

end Furniture

/-- Page-furniture removal is safe and reconstructible. -/
theorem furniture_safe (unicode : Unicode) {document : NormalizedDocument}
    (identified : document.Identified) :
    (∀ policy, ∃ furniture, forPolicy unicode document policy = some furniture ∧
      Safe unicode document policy furniture) ∧
    ∀ warnings, ∃ pages, furnitureCoverageExclusions unicode warnings document = some pages ∧
      (pages = ∅ ∨ ∃ policy furniture, forPolicy unicode document policy = some furniture ∧
        pages = furniture.excludedPages) := by
  have safe : ∀ policy, ∃ furniture, forPolicy unicode document policy = some furniture ∧
      Safe unicode document policy furniture := by
    intro policy
    obtain ⟨all, computed, traced⟩ := candidates_spec unicode document policy
    obtain ⟨furniture, exists_, ranges, excluded⟩ := forPolicy_spec identified computed traced
    have own : ∀ page ∈ document.pages, ∀ block ∈ page.content,
        furniture.retainedRanges block.blockId = some (blockRanges all block) :=
      fun page page_mem block block_mem =>
        ranges block (List.mem_flatMap.mpr ⟨page, page_mem, block_mem⟩)
    refine ⟨furniture, exists_, ?_, ?_⟩
    · intro page page_mem block block_mem
      refine ⟨_, own page page_mem block block_mem,
        blockRanges_wholeLines identified page_mem block_mem traced, ?_⟩
      intro line line_mem removed
      obtain ⟨candidate, -, origin, recurring, start, finish⟩ :=
        removed_within identified page_mem block_mem traced line_mem removed
      refine ⟨⟨candidate, origin, recurring_of_recurs traced recurring, start, finish⟩, ?_⟩
      rintro rfl acts
      exact origin.operative line_mem start finish acts
    · intro number
      rw [excluded]
      constructor
      · rintro ⟨native, page, page_mem, rfl, bare⟩
        refine ⟨native, page, page_mem, rfl, ?_⟩
        intro block block_mem ranges found
        rw [own page page_mem block block_mem] at found
        obtain rfl := Option.some.inj found
        exact bare block block_mem
      · rintro ⟨native, page, page_mem, rfl, bare⟩
        exact ⟨native, page, page_mem, rfl, fun block block_mem =>
          bare block block_mem _ (own page page_mem block block_mem)⟩
  refine ⟨safe, ?_⟩
  intro warnings
  obtain ⟨running, first, -⟩ := safe .runningMetadata
  obtain ⟨original, second, -⟩ := safe .original
  obtain ⟨pages, computed, cases⟩ := furnitureCoverageExclusions_spec warnings first second
  refine ⟨pages, computed, ?_⟩
  rcases cases with none | reached | reached
  · exact .inl none
  · exact .inr ⟨_, _, first, reached⟩
  · exact .inr ⟨_, _, second, reached⟩

/-! ## Notices -/

def noticePage (number : Nat) (text : String) : NormalizedPage where
  pageNumber := number
  content := [⟨toString number, .text, text, ⟨number, number, none, .nativeText⟩⟩]
  warnings := []
  requiresVisualProcessing := false

/-- Two pages whose notices differ after their first line. -/
def noticeDocument : NormalizedDocument where
  documentId := "d"
  normalizationVersion := normalizationVersion
  pages := [
    noticePage 1 "Copyright 2020 Example\nAll rights reserved. Trademark one.\n\nBody one.",
    noticePage 2 "Copyright 2020 Example\nAll rights reserved. Trademark two.\n\nBody two."]
  warnings := []

theorem furniture_safe_of_notices :
    (∀ policy, ∃ furniture, forPolicy .ascii noticeDocument policy = some furniture ∧
      Safe .ascii noticeDocument policy furniture) ∧
    ∀ warnings, ∃ pages, furnitureCoverageExclusions .ascii warnings noticeDocument = some pages ∧
      (pages = ∅ ∨ ∃ policy furniture, forPolicy .ascii noticeDocument policy = some furniture ∧
        pages = furniture.excludedPages) :=
  furniture_safe .ascii ⟨by decide, by decide⟩

/-- Every removed line that is no edge number or filing header is found on two pages. -/
def LinesRecur (unicode : Unicode) (document : NormalizedDocument) (furniture : Furniture) :
    Prop :=
  ∀ page ∈ document.pages, ∀ block ∈ page.content, ∀ ranges,
    furniture.retainedRanges block.blockId = some ranges →
    ∀ line ∈ linesOf block, Removed ranges line →
      EdgeLine page block line ∧ isPageNumber unicode line.text page.pageNumber = true ∨
      edgarHeader unicode (trim line.text) = true ∨
      ∃ others : Finset Nat, 2 ≤ others.card ∧ ∀ number ∈ others, ∃ page ∈ document.pages,
        page.pageNumber = number ∧ ∃ block ∈ page.content, ∃ other ∈ linesOf block,
          normalizedText unicode other.text = normalizedText unicode line.text

/-- The second line of a notice is removed although it is on one page only. -/
theorem notice_line_does_not_recur :
    ∃ furniture, forPolicy .ascii noticeDocument .runningMetadata = some furniture ∧
      ¬ LinesRecur .ascii noticeDocument furniture := by
  obtain ⟨furniture, found⟩ : ∃ furniture,
      forPolicy .ascii noticeDocument .runningMetadata = some furniture :=
    Option.isSome_iff_exists.mp (by decide +kernel)
  refine ⟨furniture, found, ?_⟩
  intro recur
  have page_mem : noticePage 1
      "Copyright 2020 Example\nAll rights reserved. Trademark one.\n\nBody one." ∈
      noticeDocument.pages := List.mem_cons_self
  have ranges : furniture.retainedRanges "1" = some [(60, 69)] := by
    have computed : (forPolicy .ascii noticeDocument .runningMetadata).bind
        (·.retainedRanges "1") = some [(60, 69)] := by decide +kernel
    rw [found] at computed
    exact computed
  have lines : (linesOf ⟨"1", .text,
      "Copyright 2020 Example\nAll rights reserved. Trademark one.\n\nBody one.",
      ⟨1, 1, none, .nativeText⟩⟩)[1]? =
      some ⟨23, 59, "All rights reserved. Trademark one.\n".toList⟩ := by decide +kernel
  have removed : Removed [(60, 69)]
      ⟨23, 59, "All rights reserved. Trademark one.\n".toList⟩ := by
    rintro byte lower upper ⟨range, mem, inside⟩
    obtain rfl := List.mem_singleton.mp mem
    have := inside.1
    simp only at upper this
    omega
  have alone : ∀ page ∈ noticeDocument.pages, ∀ block ∈ page.content, ∀ other ∈ linesOf block,
      normalizedText .ascii other.text =
        normalizedText .ascii "All rights reserved. Trademark one.\n".toList →
      page.pageNumber = 1 := by decide +kernel
  rcases recur _ page_mem _ List.mem_cons_self _ ranges _ (List.mem_of_getElem? lines) removed
    with ⟨-, number⟩ | header | ⟨others, many, found_on⟩
  · revert number
    decide +kernel
  · revert header
    decide +kernel
  · have single : others ⊆ {1} := by
      intro number mem
      obtain ⟨page, page_mem, rfl, block, block_mem, other, other_mem, same⟩ := found_on number mem
      rw [Finset.mem_singleton]
      exact alone page page_mem block block_mem other other_mem same
    have := Finset.card_le_card single
    rw [Finset.card_singleton] at this
    omega

end Furniture

end DocumentSummarizer.Pipeline
