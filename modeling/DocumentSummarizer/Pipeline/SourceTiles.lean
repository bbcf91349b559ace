import DocumentSummarizer.Library.Tiling
import DocumentSummarizer.Pipeline.QuoteSegments
import DocumentSummarizer.Pipeline.TrimmedText

/-! # Source tiles

A block is tiled by trimmed ranges with nothing but whitespace between them.
Its paragraphs are such a tiling.
-/

namespace DocumentSummarizer.Pipeline

open Library

def BlankBetween (source : List Char) (start finish : Nat) : Prop :=
  ∃ part, byteSlice source start finish = some part ∧ ∀ c ∈ part, isWhitespace c = true

def TrimmedBetween (source : List Char) (start finish : Nat) : Prop :=
  ∃ part, byteSlice source start finish = some part ∧ Trimmed part

abbrev Tiles (source : List Char) : Nat → List (Nat × Nat) → Nat → Prop :=
  Tiled (BlankBetween source) (TrimmedBetween source)

section Between

variable {source text : List Char} {start middle finish : Nat}

theorem BlankBetween.le (h : BlankBetween source start finish) : start ≤ finish := by
  obtain ⟨_, sliced, _⟩ := h
  exact (boundaries_of_slice sliced).2.2

theorem BlankBetween.trans (first : BlankBetween source start middle)
    (second : BlankBetween source middle finish) : BlankBetween source start finish := by
  obtain ⟨_, left, blank_left⟩ := first
  obtain ⟨_, right, blank_right⟩ := second
  refine ⟨_, byteSlice_append left right, fun c mem => ?_⟩
  exact (List.mem_append.mp mem).elim (blank_left c) (blank_right c)

theorem byteSlice_empty {offset : Nat} (boundary : IsBoundary source offset) :
    byteSlice source offset offset = some [] := by
  obtain ⟨front, back, rfl, rfl⟩ := boundary
  exact byteSlice_eq_some.mpr ⟨front, back, rfl, rfl, rfl⟩

theorem blankBetween_self {offset : Nat} (boundary : IsBoundary source offset) :
    BlankBetween source offset offset :=
  ⟨[], byteSlice_empty boundary, fun _ mem => absurd mem List.not_mem_nil⟩

theorem TrimmedBetween.lt (h : TrimmedBetween source start finish) : start < finish := by
  obtain ⟨part, sliced, trimmed⟩ := h
  obtain ⟨_, _, _, _, size⟩ := byteSlice_eq_some.mp sliced
  have := trimmed.byteLength_pos
  omega

theorem TrimmedBetween.le (h : TrimmedBetween source start finish) : start ≤ finish :=
  h.lt.le

theorem TrimmedBetween.merge {a b c d : Nat} (first : TrimmedBetween source a b)
    (between : BlankBetween source b c) (second : TrimmedBetween source c d) :
    TrimmedBetween source a d := by
  obtain ⟨_, left, trimmed_left⟩ := first
  obtain ⟨_, middle, _⟩ := between
  obtain ⟨_, right, trimmed_right⟩ := second
  exact ⟨_, byteSlice_append left (byteSlice_append middle right),
    trimmed_left.append trimmed_right⟩

theorem tiles_boundaries {ranges : List (Nat × Nat)} (h : Tiles source start ranges finish) :
    IsBoundary source start ∧ IsBoundary source finish := by
  induction h with
  | done rest =>
      obtain ⟨_, sliced, _⟩ := rest
      exact ⟨(boundaries_of_slice sliced).1, (boundaries_of_slice sliced).2.1⟩
  | tile before _ _ ih =>
      obtain ⟨_, sliced, _⟩ := before
      exact ⟨(boundaries_of_slice sliced).1, ih.2⟩

theorem tiles_le {ranges : List (Nat × Nat)} (h : Tiles source start ranges finish) :
    start ≤ finish :=
  h.le (fun blank => blank.le) (fun trimmed => trimmed.le)

/-! ## Trimmed ranges -/

theorem trimEnd_append {front back : List Char} (trailing : ∀ c ∈ back, isWhitespace c = true) :
    trimEnd (front ++ back) = trimEnd front := by
  simp only [trimEnd, List.rdropWhile, List.reverse_append]
  rw [List.dropWhile_append_of_pos fun c mem => trailing c (List.mem_reverse.mp mem)]

theorem Trimmed.trimEnd_eq {front : List Char} (h : Trimmed text) :
    trimEnd (front ++ text) = front ++ text := by
  obtain ⟨c, ends, visible⟩ := h.last
  obtain ⟨rest, rfl⟩ := List.getLast?_eq_some_iff.mp ends
  rw [trimEnd, ← List.append_assoc, List.rdropWhile_concat_neg]
  simp [visible]

theorem trimEnd_eq_nil_iff : trimEnd text = [] ↔ blank text = true := by
  rw [trimEnd, List.rdropWhile_eq_nil_iff, blank_iff]

theorem trimEnd_split (visible : blank text = false) :
    ∃ front back, text = front ++ (trim text ++ back) ∧ trimEnd text = front ++ trim text ∧
      trimStart text = trim text ++ back ∧
      (∀ c ∈ front, isWhitespace c = true) ∧ ∀ c ∈ back, isWhitespace c = true := by
  obtain ⟨front, back, whole, started, leading, trailing⟩ := trim_split text
  have shape := congrArg trimEnd whole
  rw [← List.append_assoc, trimEnd_append trailing, (trimmed_trim visible).trimEnd_eq] at shape
  exact ⟨front, back, whole, shape, started, leading, trailing⟩

/-- The place of what `trim` keeps of a slice. -/
def trimmedRange (start : Nat) (text : List Char) : Nat × Nat :=
  (start + (byteLength text - byteLength (trimStart text)), start + byteLength (trimEnd text))

theorem trimmedRange_spec (sliced : byteSlice source start finish = some text)
    (visible : blank text = false) :
    BlankBetween source start (trimmedRange start text).1 ∧
      byteSlice source (trimmedRange start text).1 (trimmedRange start text).2 =
        some (trim text) ∧
      BlankBetween source (trimmedRange start text).2 finish := by
  obtain ⟨front, back, whole, ended, started, leading, trailing⟩ := trimEnd_split visible
  have size := congrArg byteLength whole
  have first : start + (byteLength text - byteLength (trimStart text)) =
      start + byteLength front := by
    simp only [started, byteLength_append] at size ⊢
    omega
  obtain ⟨ahead, behind, rfl, rfl, rfl⟩ := byteSlice_eq_some.mp sliced
  simp only [trimmedRange, first, ended]
  refine ⟨⟨front, ?_, leading⟩, ?_, ⟨back, ?_, trailing⟩⟩
  · refine byteSlice_eq_some.mpr ⟨ahead, trim text ++ (back ++ behind), ?_, rfl, rfl⟩
    nth_rewrite 1 [whole]
    simp
  · refine byteSlice_eq_some.mpr ⟨ahead ++ front, back ++ behind, ?_, byteLength_append _ _, ?_⟩
    · nth_rewrite 1 [whole]
      simp
    · simp [Nat.add_assoc]
  · refine byteSlice_eq_some.mpr
      ⟨ahead ++ (front ++ trim text), behind, ?_, byteLength_append _ _, ?_⟩
    · nth_rewrite 1 [whole]
      simp
    · simp only [byteLength_append] at size ⊢
      omega

/-- Between blanks a visible slice has its trimmed range, and a blank one has none. -/
theorem trimmedUnit_spec (sliced : byteSlice source start finish = some text) :
    ∃ unit, trimmedUnit source start finish = some unit ∧
      if blank text = true then BlankBetween source start finish ∧ ¬unit.1 < unit.2
      else BlankBetween source start unit.1 ∧ TrimmedBetween source unit.1 unit.2 ∧
        BlankBetween source unit.2 finish := by
  refine ⟨trimmedRange start text, by rw [trimmedUnit, sliced]; rfl, ?_⟩
  split
  next empty =>
    refine ⟨⟨text, sliced, blank_iff.mp empty⟩, ?_⟩
    simp [trimmedRange, trimEnd_eq_nil_iff.mpr empty]
  next visible =>
    have shown := Bool.eq_false_iff.mpr visible
    obtain ⟨before, inside, after⟩ := trimmedRange_spec sliced shown
    exact ⟨before, ⟨_, inside, trimmed_trim shown⟩, after⟩

/-- The unit of a slice, when it has one, tiles it. -/
theorem trimmedUnit_tiles (sliced : byteSlice source start finish = some text) :
    ∃ unit, trimmedUnit source start finish = some unit ∧
      Tiles source start (if unit.1 < unit.2 then [unit] else []) finish := by
  obtain ⟨unit, found, shape⟩ := trimmedUnit_spec sliced
  refine ⟨unit, found, ?_⟩
  split at shape
  · rw [if_neg shape.2]
    exact .done shape.1
  · rw [if_pos shape.2.1.lt]
    exact .tile shape.1 shape.2.1 (.done shape.2.2)

end Between

/-! ## Paragraphs -/

section Paragraphs

variable {source : List Char} {start : Nat}

theorem paragraphsFrom_spec {lines : List Located} (boundary : IsBoundary source start)
    (bounded : start ≤ byteLength source)
    (sliced : ∀ line ∈ lines, byteSlice source line.start line.finish = some line.text)
    (later : ∀ line ∈ lines, start ≤ line.start)
    (ordered : lines.Pairwise fun a b => a.finish ≤ b.start) :
    ∃ ranges, paragraphsFrom source start lines = some ranges ∧
      Tiles source start ranges (byteLength source) := by
  induction lines generalizing start with
  | nil =>
      obtain ⟨text, rest⟩ := byteSlice_of_boundaries boundary (isBoundary_length source) bounded
      obtain ⟨unit, found, tiles⟩ := trimmedUnit_tiles rest
      exact ⟨_, by rw [paragraphsFrom, found]; rfl, tiles⟩
  | cons line rest ih =>
      have here := sliced line List.mem_cons_self
      obtain ⟨first, last, increasing⟩ := boundaries_of_slice here
      have others := List.pairwise_cons.mp ordered
      have further := fun line mem => sliced line (List.mem_cons_of_mem _ mem)
      rw [paragraphsFrom]
      split
      next empty =>
        have end_bounded : line.finish ≤ byteLength source := by
          obtain ⟨front, back, whole, size⟩ := last
          rw [whole, byteLength_append]
          omega
        obtain ⟨ranges, found, tiles⟩ := ih last end_bounded further others.1 others.2
        obtain ⟨text, before⟩ :=
          byteSlice_of_boundaries boundary first (later line List.mem_cons_self)
        obtain ⟨unit, trimmed, front⟩ := trimmedUnit_tiles before
        have gap : BlankBetween source line.start line.finish := ⟨_, here, blank_iff.mp empty⟩
        refine ⟨_, by rw [trimmed, found]; rfl, ?_⟩
        exact front.append BlankBetween.trans (tiles.after_gap BlankBetween.trans gap)
      next =>
        exact ih boundary bounded further
          (fun line mem => later line (List.mem_cons_of_mem _ mem)) others.2

theorem paragraphs_spec (source : List Char) :
    ∃ ranges, paragraphs source = some ranges ∧
      Tiles source 0 ranges (byteLength source) :=
  paragraphsFrom_spec (isBoundary_zero source) (Nat.zero_le _) (fun _ => locatedLines_slice)
    (fun _ _ => Nat.zero_le _) locatedLines_pairwise

end Paragraphs

end DocumentSummarizer.Pipeline
