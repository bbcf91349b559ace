import DocumentSummarizer.Coherent.FramingTransitions

/-! # The framing of a segment

A segment of a block stands under the framing that the transitions of the block have left by its
start.
-/

namespace DocumentSummarizer.Coherent

open Library Pipeline

/-- A transition of a line, by its offset in the block. -/
def Transition.shifted (transition : Transition) (lineStart : Nat) : Transition :=
  ⟨lineStart + transition.offset, transition.next⟩

/-- The transitions of the lines of a block, in the order in which they are emitted. -/
def blockTransitions (unicode : Unicode) (lineStart : Nat) (framing : SourceFramingState) :
    List (List Char) → List Transition
  | [] => []
  | line :: later =>
    let update := sourceFramingLineUpdate unicode framing line
    update.transitions.map (·.shifted lineStart) ++
      blockTransitions unicode (lineStart + byteLength line) update.state later

/-- The framing by the last emitted transition at a position or in front of it. -/
def framingAt (incoming : Option SourceFraming) (transitions : List Transition)
    (position : Nat) : Option SourceFraming :=
  framingAfter incoming (transitions.filter fun transition => transition.offset ≤ position)

/-- No transition falls inside a segment. -/
def NoneInside (segmentStart segmentEnd : Nat) (transitions : List Transition) : Prop :=
  ∀ transition ∈ transitions,
    ¬ (segmentStart < transition.offset ∧ transition.offset < segmentEnd)

section Positions

variable {unicode : Unicode} {segmentStart segmentEnd : Nat} {active : Option SourceFraming}

theorem framingAfter_cons (incoming : Option SourceFraming) (first : Transition)
    (later : List Transition) :
    framingAfter incoming (first :: later) = framingAfter first.next later :=
  framingAfter_append incoming [first] later

theorem framingAfter_shifted (transitions : List Transition) (lineStart : Nat) :
    framingAfter active (transitions.map (·.shifted lineStart)) =
      framingAfter active transitions := by
  simp [framingAfter, List.getLast?_map, Transition.shifted, Function.comp_def]

theorem NoneInside.append_iff {first second : List Transition} :
    NoneInside segmentStart segmentEnd (first ++ second) ↔
      NoneInside segmentStart segmentEnd first ∧ NoneInside segmentStart segmentEnd second := by
  simp [NoneInside, or_imp, forall_and]

theorem framingInLine_eq {transitions : List Transition} {lineStart : Nat}
    (clear : NoneInside segmentStart segmentEnd (transitions.map (·.shifted lineStart))) :
    framingInLine active lineStart segmentStart segmentEnd transitions =
      some (framingAt active (transitions.map (·.shifted lineStart)) segmentStart) := by
  induction transitions generalizing active with
  | nil => rfl
  | cons first later ih =>
      obtain ⟨own, others⟩ := List.forall_mem_cons.mp clear
      unfold framingInLine
      dsimp only
      rw [List.map_cons, framingAt]
      by_cases early : lineStart + first.offset ≤ segmentStart
      · have kept : (first.shifted lineStart).offset ≤ segmentStart := early
        rw [if_pos early, ih others, List.filter_cons_of_pos (by simpa using kept),
          framingAfter_cons]
        rfl
      · have outside : ¬ lineStart + first.offset < segmentEnd :=
          fun inside => own ⟨Nat.lt_of_not_le early, inside⟩
        have left : ¬ (first.shifted lineStart).offset ≤ segmentStart := early
        rw [if_neg early, if_neg outside, ih others,
          List.filter_cons_of_neg (by simpa using left)]
        rfl

theorem blockTransitions_behind (lineStart : Nat) (framing : SourceFramingState)
    (blockLines : List (List Char)) :
    Behind lineStart (blockTransitions unicode lineStart framing blockLines) := by
  induction blockLines generalizing lineStart framing with
  | nil => exact Behind.nil lineStart
  | cons line later ih =>
      refine Behind.append ?_ ((ih _ _).mono (Nat.le_add_right _ _))
      intro transition mem
      obtain ⟨own, -, rfl⟩ := List.mem_map.mp mem
      exact Nat.le_add_right lineStart own.offset

theorem governingFraming_behind {lineStart : Nat} {framing : SourceFramingState}
    {blockLines : List (List Char)} (past : segmentStart < lineStart)
    (clear : NoneInside segmentStart segmentEnd
      (blockTransitions unicode lineStart framing blockLines)) :
    governingFraming unicode segmentStart segmentEnd framing active lineStart blockLines =
      active := by
  induction blockLines generalizing lineStart framing with
  | nil => rfl
  | cons line later ih =>
      obtain ⟨own, others⟩ := NoneInside.append_iff.mp clear
      unfold governingFraming
      dsimp only
      split
      · rfl
      · rw [if_neg (by omega), framingInLine_eq own]
        dsimp only
        rw [if_neg (by omega)]
        exact ih (by omega) others

theorem boundary_le {text : List Char} {offset : Nat} (boundary : IsBoundary text offset) :
    offset ≤ byteLength text := by
  obtain ⟨front, back, rfl, rfl⟩ := boundary
  simp

/-- What governs a segment is the framing at its start. -/
theorem governingFraming_eq {lineStart : Nat} {framing : SourceFramingState}
    {blockLines : List (List Char)} (ahead : lineStart ≤ segmentStart)
    (nonempty : segmentStart < segmentEnd)
    (clear : NoneInside segmentStart segmentEnd
      (blockTransitions unicode lineStart framing blockLines)) :
    governingFraming unicode segmentStart segmentEnd framing framing.active lineStart blockLines =
      framingAt framing.active (blockTransitions unicode lineStart framing blockLines)
        segmentStart := by
  induction blockLines generalizing lineStart framing with
  | nil => rfl
  | cons line later ih =>
      obtain ⟨own, others⟩ := NoneInside.append_iff.mp clear
      have emits := @sourceFramingLineUpdate_emits unicode framing line
      unfold governingFraming
      simp only [blockTransitions, framingAt, List.filter_append, framingAfter_append]
      rw [if_neg (by omega)]
      split
      · next ended =>
          -- every transition of the line is in front of the segment
          have all : ∀ transition ∈ (sourceFramingLineUpdate unicode framing line).transitions.map
              (·.shifted lineStart), decide (transition.offset ≤ segmentStart) = true := by
            intro transition mem
            obtain ⟨inner, inside, rfl⟩ := List.mem_map.mp mem
            have bound := boundary_le (emits.boundaries inner inside)
            have early : lineStart + inner.offset ≤ segmentStart := by omega
            exact decide_eq_true early
          rw [List.filter_eq_self.mpr all, framingAfter_shifted, ← emits.framing]
          exact ih ended others
      · next unended =>
          -- the later lines are behind the start of the segment
          have later_none : (blockTransitions unicode (lineStart + byteLength line)
              (sourceFramingLineUpdate unicode framing line).state later).filter
                (fun transition => decide (transition.offset ≤ segmentStart)) = [] := by
            rw [List.filter_eq_nil_iff]
            intro transition mem
            have behind := blockTransitions_behind _ _ _ transition mem
            simp only [decide_eq_true_eq]
            omega
          rw [framingInLine_eq own, later_none, framingAfter_nil]
          dsimp only
          rw [governingFraming_behind (by omega) others]
          rfl

end Positions

/-! ## Quotes -/

theorem matchIndices_nil_ne_nil (offset : Nat) (text : List Char) :
    matchIndices [] offset 0 text ≠ [] := by
  cases text <;> simp [matchIndices]

theorem matchIndices_once {quote block : List Char} {start : Nat}
    (once : matchIndices quote 0 0 block = [start]) : quote ≠ [] ∨ block = [] := by
  cases quote with
  | cons c quote => exact .inl (List.cons_ne_nil c quote)
  | nil =>
      cases block with
      | nil => exact .inr rfl
      | cons c block =>
          simp only [matchIndices, List.isPrefixOf, and_self, if_true, List.length_nil] at once
          exact absurd (List.cons.inj once).2 (matchIndices_nil_ne_nil _ _)

theorem filter_of_ordered {transitions : List Transition} {position : Nat}
    (ordered : transitions.Pairwise fun first later => first.offset ≤ later.offset) :
    transitions.filter (fun transition => transition.offset ≤ position) =
      transitions.takeWhile fun transition => transition.offset ≤ position := by
  induction transitions with
  | nil => rfl
  | cons first later ih =>
      obtain ⟨own, others⟩ := List.pairwise_cons.mp ordered
      by_cases early : first.offset ≤ position
      · rw [List.filter_cons_of_pos (by simpa using early),
          List.takeWhile_cons_of_pos (by simpa using early), ih others]
      · rw [List.filter_cons_of_neg (by simpa using early),
          List.takeWhile_cons_of_neg (by simpa using early), List.filter_eq_nil_iff]
        intro transition mem
        have behind := own transition mem
        simp only [decide_eq_true_eq]
        omega

/-- The transitions of a line are between its characters and leave the framing of the state behind
it; a quote that occurs once, is no heading and has no transition inside stands under the framing
that the transitions of the block have left by its start. -/
theorem source_framing_positions (unicode : Unicode) (current : SourceFramingState)
    (line block quote : List Char) (inherited : SourceFramingState) (start : Nat)
    (once : matchIndices quote 0 0 block = [start])
    (plain : framingFromHeading unicode (trim quote) = none)
    (clear : NoneInside start (start + byteLength quote)
      (blockTransitions unicode 0 inherited (splitInclusive '\n' block))) :
    LineEmits line current (sourceFramingLineUpdate unicode current line) ∧
      sourceFramingForSegmentWithState unicode block quote inherited =
        framingAt inherited.active
          (blockTransitions unicode 0 inherited (splitInclusive '\n' block)) start ∧
      ((blockTransitions unicode 0 inherited (splitInclusive '\n' block)).Pairwise
          (fun first later => first.offset ≤ later.offset) →
        sourceFramingForSegmentWithState unicode block quote inherited =
          framingAfter inherited.active
            ((blockTransitions unicode 0 inherited (splitInclusive '\n' block)).takeWhile
              fun transition => transition.offset ≤ start)) := by
  have position : sourceFramingForSegmentWithState unicode block quote inherited =
      framingAt inherited.active
        (blockTransitions unicode 0 inherited (splitInclusive '\n' block)) start := by
    unfold sourceFramingForSegmentWithState
    rw [once]
    simp only [plain, Option.isSome_none, Bool.false_eq_true, if_false]
    obtain filled | rfl := matchIndices_once once
    · have positive := byteLength_pos filled
      exact governingFraming_eq (Nat.zero_le start) (by omega) clear
    · rfl
  refine ⟨sourceFramingLineUpdate_emits current line, position, ?_⟩
  intro ordered
  rw [position, framingAt, filter_of_ordered ordered]

theorem leaks_stand_under_risks :
    sourceFramingForSegmentWithState .ascii "Risks\nLeaks occur.\n".toList "Leaks".toList
      ⟨none, none, none⟩ = some .risk := by
  have read := (source_framing_positions .ascii ⟨none, none, none⟩ "Risks".toList
    "Risks\nLeaks occur.\n".toList "Leaks".toList ⟨none, none, none⟩ 6 (by decide) (by decide)
    (by unfold NoneInside; decide)).2.1
  rw [read]
  decide

/-- A heading without a body counts from its start, in front of an earlier one; and a quote that is
a heading has no framing. -/
theorem heading_dated_back :
    (sourceFramingLineUpdate .ascii ⟨none, none, none⟩ "Risks - Known issues:".toList).transitions =
        [⟨7, some .risk⟩, ⟨0, none⟩] ∧
      matchIndices "Risks".toList 0 0 "Risks\nLeaks occur.\n".toList = [0] ∧
      blockTransitions .ascii 0 ⟨none, none, none⟩
        (splitInclusive '\n' "Risks\nLeaks occur.\n".toList) = [⟨0, some .risk⟩] ∧
      sourceFramingForSegmentWithState .ascii "Risks\nLeaks occur.\n".toList "Risks".toList
        ⟨none, none, none⟩ = none := by
  decide

end DocumentSummarizer.Coherent
