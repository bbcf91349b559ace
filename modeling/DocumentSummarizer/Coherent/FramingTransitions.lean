import DocumentSummarizer.Coherent.FramingOffsets

/-! # Framing transitions of a line

What each update of a line emits, and what the reading of a whole line emits.
-/

namespace DocumentSummarizer.Coherent

open Library Pipeline

/-- The framing behind transitions, by the last that was emitted. -/
def framingAfter (incoming : Option SourceFraming) (transitions : List Transition) :
    Option SourceFraming :=
  (transitions.getLast?.map (·.next)).getD incoming

@[simp] theorem framingAfter_nil (incoming : Option SourceFraming) :
    framingAfter incoming [] = incoming :=
  rfl

@[simp] theorem framingAfter_concat (incoming : Option SourceFraming) (front : List Transition)
    (last : Transition) : framingAfter incoming (front ++ [last]) = last.next := by
  simp [framingAfter]

theorem framingAfter_append (incoming : Option SourceFraming) (front back : List Transition) :
    framingAfter incoming (front ++ back) = framingAfter (framingAfter incoming front) back := by
  cases back using List.reverseRecOn with
  | nil => simp
  | append_singleton back last => rw [← List.append_assoc, framingAfter_concat, framingAfter_concat]

/-- An update of a line appends transitions, between characters of the line, and leaves the
framing of the last of them. -/
structure Emits (line : List Char) (scan scan' : LineScan) (emitted : List Transition) : Prop where
  appended : scan'.transitions = scan.transitions ++ emitted
  framing : scan'.framing = framingAfter scan.framing emitted
  boundaries : ∀ transition ∈ emitted, IsBoundary line transition.offset

namespace Emits

variable {line : List Char} {scan scan' scan'' : LineScan} {first second : List Transition}

theorem refl (line : List Char) (scan : LineScan) : Emits line scan scan [] :=
  ⟨by simp, rfl, fun _ mem => absurd mem List.not_mem_nil⟩

theorem turn {offset : Nat} (boundary : IsBoundary line offset)
    (framing suspended : Option SourceFraming) :
    Emits line scan (scan.turn framing suspended offset) [⟨offset, framing⟩] where
  appended := rfl
  framing := rfl
  boundaries := by simpa using boundary

theorem trans (before : Emits line scan scan' first) (behind : Emits line scan' scan'' second) :
    Emits line scan scan'' (first ++ second) where
  appended := by rw [behind.appended, before.appended, List.append_assoc]
  framing := by rw [behind.framing, before.framing, framingAfter_append]
  boundaries := by
    intro transition mem
    obtain mem | mem := List.mem_append.mp mem
    · exact before.boundaries transition mem
    · exact behind.boundaries transition mem

theorem await (scan : LineScan) (unanswered : Bool) :
    Emits line scan (scan.await unanswered) [] := by
  unfold LineScan.await
  split
  · exact ⟨by simp, rfl, fun _ mem => absurd mem List.not_mem_nil⟩
  · exact refl line scan

theorem allow (emits : Emits line scan scan' first) (allowed : Bool) :
    Emits line scan (scan'.allow allowed) first :=
  ⟨emits.appended, emits.framing, emits.boundaries⟩

end Emits

/-- Every transition is at an offset or behind it. -/
def Behind (low : Nat) (emitted : List Transition) : Prop :=
  ∀ transition ∈ emitted, low ≤ transition.offset

theorem Behind.nil (low : Nat) : Behind low [] :=
  fun _ mem => absurd mem List.not_mem_nil

theorem Behind.append {low : Nat} {first second : List Transition} (before : Behind low first)
    (behind : Behind low second) : Behind low (first ++ second) := by
  intro transition mem
  obtain mem | mem := List.mem_append.mp mem
  · exact before transition mem
  · exact behind transition mem

theorem Behind.mono {low high : Nat} {emitted : List Transition} (behind : Behind high emitted)
    (lower : low ≤ high) : Behind low emitted :=
  fun transition mem => lower.trans (behind transition mem)

/-- An update emits transitions from an offset on. -/
def EmitsBehind (line : List Char) (low : Nat) (scan scan' : LineScan) : Prop :=
  ∃ emitted, Emits line scan scan' emitted ∧ Behind low emitted

section Updates

variable {unicode : Unicode} {line text : List Char} {scan : LineScan} {base : Nat}

theorem applySectionDenialUpdate_emits (stands : StandsAt line text base)
    (allowBareNoAnswer : Bool) :
    EmitsBehind line base scan
      (applySectionDenialUpdateWithAnswerContext unicode scan base text allowBareNoAnswer) := by
  unfold applySectionDenialUpdateWithAnswerContext
  cases scan.framing with
  | none => exact ⟨[], Emits.refl line scan, Behind.nil base⟩
  | some activeFraming =>
      dsimp only
      cases denial : sectionDenialUpdateWithAnswerContext unicode text activeFraming
          allowBareNoAnswer with
      | none => exact ⟨[], Emits.refl line scan, Behind.nil base⟩
      | some update =>
          have places := sectionDenialUpdate_stands denial
          have denied := @Emits.turn line scan _ (stands.boundary places.denial) none
            (some activeFraming)
          dsimp only
          cases again : update.reintroductionOffset with
          | none => exact ⟨_, denied, by simp [Behind]⟩
          | some offset =>
              refine ⟨_, denied.trans (Emits.turn (stands.boundary
                (places.reintroduction offset again)) (some activeFraming) none), ?_⟩
              simp [Behind]

theorem reintroduce_emits (stands : StandsAt line text base) :
    EmitsBehind line base scan (reintroduce unicode scan base text) := by
  unfold reintroduce
  split
  · next category _ _ =>
      cases again : sourceFramingReintroductionOffset unicode text category
          (coordinatedContinuationLead unicode text) with
      | none => exact ⟨[], Emits.refl line scan, Behind.nil base⟩
      | some offset =>
          exact ⟨_, Emits.turn (stands.boundary (sourceFramingReintroductionOffset_boundary again))
            (some category) none, by simp [Behind]⟩
  · exact ⟨[], Emits.refl line scan, Behind.nil base⟩

theorem firstSourceSentence_begins (text : List Char) : firstSourceSentence text <+: text := by
  unfold firstSourceSentence
  conv => rhs; rw [← @List.takeWhile_append_dropWhile _ (!isSourceSentenceTerminal ·) text]
  exact (List.prefix_append_right_inj _).mpr (List.take_prefix 1 _)

theorem applySuspendedFramingReintroduction_emits (stands : StandsAt line text base) :
    EmitsBehind line base scan
      (applySuspendedFramingReintroduction unicode scan base text) := by
  have sentence := stands.trans (StandsAt.of_prefix (firstSourceSentence_begins text))
  exact reintroduce_emits sentence

theorem EmitsBehind.trans {scan' scan'' : LineScan} (first : EmitsBehind line base scan scan')
    (second : EmitsBehind line base scan' scan'') : EmitsBehind line base scan scan'' := by
  obtain ⟨before, emits, low⟩ := first
  obtain ⟨behind, emits', low'⟩ := second
  exact ⟨before ++ behind, emits.trans emits', low.append low'⟩

theorem EmitsBehind.allow {scan' : LineScan} (emits : EmitsBehind line base scan scan')
    (allowed : Bool) : EmitsBehind line base scan (scan'.allow allowed) := by
  obtain ⟨emitted, emits, low⟩ := emits
  exact ⟨emitted, emits.allow allowed, low⟩

end Updates

/-! ## Delimiters -/

/-- The transitions of a delimiter are behind it; only a first one may be dated back to the start
of the heading or the question in front of the delimiter. -/
def EmittedAt (leadingWhitespace : Nat) (found : List Char × Char × List Char)
    (emitted : List Transition) : Prop :=
  ∃ dated later, emitted = dated ++ later ∧ dated.length ≤ 1 ∧
    (∀ transition ∈ dated,
      transition.offset = leadingWhitespace + (inlineHeadingPrefix found.1).2) ∧
    Behind (leadingWhitespace + byteLength found.1 + found.2.1.utf8Size) later

section Delimiters

variable {unicode : Unicode} {line front rest : List Char} {delimiter : Char} {scan : LineScan}
  {leadingWhitespace : Nat}

/-- What a delimiter emits. -/
def EmitsAt (line : List Char) (leadingWhitespace : Nat) (found : List Char × Char × List Char)
    (scan scan' : LineScan) : Prop :=
  ∃ emitted, Emits line scan scan' emitted ∧ EmittedAt leadingWhitespace found emitted

theorem EmitsAt.of_behind {scan' : LineScan}
    (emits : EmitsBehind line (leadingWhitespace + byteLength front + delimiter.utf8Size) scan
      scan') : EmitsAt line leadingWhitespace (front, delimiter, rest) scan scan' := by
  obtain ⟨emitted, emits, behind⟩ := emits
  exact ⟨emitted, emits, [], emitted, rfl, Nat.zero_le 1, fun _ mem => absurd mem List.not_mem_nil,
    behind⟩

theorem EmitsAt.refl {found : List Char × Char × List Char} :
    EmitsAt line leadingWhitespace found scan scan :=
  ⟨[], Emits.refl line scan, [], [], rfl, Nat.zero_le 1, fun _ mem => absurd mem List.not_mem_nil,
    Behind.nil _⟩

/-- The places around a delimiter of a line. -/
structure Around (line : List Char) (leadingWhitespace : Nat) (front : List Char)
    (delimiter : Char) (rest : List Char) : Prop where
  rest : StandsAt line rest (leadingWhitespace + byteLength front + delimiter.utf8Size)
  heading : IsBoundary line (leadingWhitespace + (inlineHeadingPrefix front).2)

theorem Around.of_stands {trimmed : List Char}
    (stands : StandsAt line trimmed leadingWhitespace)
    (shape : trimmed = front ++ delimiter :: rest) :
    Around line leadingWhitespace front delimiter rest := by
  subst shape
  constructor
  · have behind := stands.trans (StandsAt.behind front delimiter rest)
    rwa [← Nat.add_assoc] at behind
  · have ahead := StandsAt.of_prefix (List.prefix_append front (delimiter :: rest))
    exact (stands.trans ahead).boundary (inlineHeadingPrefix_boundary front)

section

variable (around : Around line leadingWhitespace front delimiter rest)

include around

theorem applyHeading_emits
    (next : Option SourceFraming) :
    EmitsAt line leadingWhitespace (front, delimiter, rest) scan
      (applyHeading unicode scan next (leadingWhitespace + (inlineHeadingPrefix front).2)
        (leadingWhitespace + byteLength front + delimiter.utf8Size) rest) := by
  unfold applyHeading
  by_cases empty : blank rest = true
  · rw [if_pos empty]
    obtain ⟨later, emits, behind⟩ := applySectionDenialUpdate_emits around.rest false
    exact ⟨_, ((Emits.turn around.heading next none).trans emits).allow false, [_], later, rfl,
      le_rfl, by simp, behind⟩
  · rw [if_neg empty]
    refine EmitsAt.of_behind (EmitsBehind.allow ?_ false)
    have turned : EmitsBehind line (leadingWhitespace + byteLength front + delimiter.utf8Size) scan
        (scan.turn next none (leadingWhitespace + byteLength front + delimiter.utf8Size)) :=
      ⟨_, Emits.turn around.rest.start next none, by simp [Behind]⟩
    exact turned.trans (applySectionDenialUpdate_emits around.rest false)

theorem questionUpdate_emits :
    EmitsAt line leadingWhitespace (front, delimiter, rest) scan
      (questionUpdate unicode scan leadingWhitespace front delimiter rest) := by
  unfold questionUpdate
  dsimp only
  generalize scan.framing.any (sectionQuestionAcceptsBareNo unicode (inlineHeadingPrefix front).1) =
    allowed
  have allow : Emits line scan (scan.allow allowed) [] := (Emits.refl line scan).allow allowed
  split
  · obtain ⟨later, emits, behind⟩ := @applySectionDenialUpdate_emits unicode line rest
      (((scan.allow allowed).turn none none
        (leadingWhitespace + (inlineHeadingPrefix front).2)).await (allowed && blank rest))
      _ around.rest allowed
    refine ⟨_, (allow.trans (Emits.turn around.heading none none)).trans
      ((Emits.await _ _).trans emits), [_], later, rfl, le_rfl, by simp, behind⟩
  · obtain ⟨later, emits, behind⟩ := @applySectionDenialUpdate_emits unicode line rest
      ((scan.allow allowed).await (allowed && blank rest)) _ around.rest allowed
    exact EmitsAt.of_behind ⟨_, allow.trans ((Emits.await _ _).trans emits), by simpa using behind⟩

theorem sentenceUpdate_emits :
    EmitsAt line leadingWhitespace (front, delimiter, rest) scan
      (sentenceUpdate unicode scan leadingWhitespace front delimiter rest) := by
  have again := @applySuspendedFramingReintroduction_emits unicode line rest scan _ around.rest
  exact EmitsAt.of_behind
    ((again.trans (applySectionDenialUpdate_emits around.rest false)).allow false)

end

theorem allow_emits {found : List Char × Char × List Char} (allowed : Bool) :
    EmitsAt line leadingWhitespace found scan (scan.allow allowed) := by
  obtain ⟨emitted, emits, at_⟩ := @EmitsAt.refl line scan leadingWhitespace found
  exact ⟨emitted, emits.allow allowed, at_⟩

section

variable (around : Around line leadingWhitespace front delimiter rest)

include around

theorem coordinatedDenial_emits :
    EmitsAt line leadingWhitespace (front, delimiter, rest) scan
      (coordinatedDenial unicode scan leadingWhitespace front delimiter rest) := by
  unfold coordinatedDenial
  dsimp only
  split
  · exact allow_emits false
  · split
    · have denial := around.rest.trans
        (StandsAt.of_suffix (continuationAfterCoordinator_suffix unicode rest))
      obtain ⟨emitted, emits, behind⟩ := @applySectionDenialUpdate_emits unicode line _ scan _
        denial false
      exact EmitsAt.of_behind
        ⟨emitted, emits.allow false, behind.mono (Nat.le_add_right _ _)⟩
    · split
      · exact EmitsAt.of_behind ((applySectionDenialUpdate_emits around.rest false).allow false)
      · exact allow_emits false

theorem coordinationUpdate_emits :
    EmitsAt line leadingWhitespace (front, delimiter, rest) scan
      (coordinationUpdate unicode scan leadingWhitespace front delimiter rest) := by
  unfold coordinationUpdate
  dsimp only
  split
  · exact allow_emits false
  · split
    · split
      · exact allow_emits false
      · split
        · exact applyHeading_emits around _
        · exact coordinatedDenial_emits around
    · exact coordinatedDenial_emits around

theorem colonUpdate_emits :
    EmitsAt line leadingWhitespace (front, delimiter, rest) scan
      (colonUpdate unicode scan leadingWhitespace front delimiter rest) := by
  unfold colonUpdate
  dsimp only
  split
  · exact applyHeading_emits around _
  · split
    · exact EmitsAt.of_behind ((applySectionDenialUpdate_emits around.rest _).allow false)
    · exact allow_emits false

end

theorem delimiterUpdate_emits {found : List Char × Char × List Char}
    (around : Around line leadingWhitespace found.1 found.2.1 found.2.2) :
    EmitsAt line leadingWhitespace found scan
      (delimiterUpdate unicode leadingWhitespace scan found) := by
  obtain ⟨front, delimiter, rest⟩ := found
  unfold delimiterUpdate
  dsimp only
  split
  · exact questionUpdate_emits around
  · split
    · exact sentenceUpdate_emits around
    · split
      · exact coordinationUpdate_emits around
      · exact colonUpdate_emits around

/-- The delimiters of a line emit one group of transitions each. -/
theorem delimiters_emit {found : List (List Char × Char × List Char)}
    (around : ∀ entry ∈ found, Around line leadingWhitespace entry.1 entry.2.1 entry.2.2) :
    ∃ groups, Emits line scan (found.foldl (delimiterUpdate unicode leadingWhitespace) scan)
        groups.flatten ∧
      List.Forall₂ (EmittedAt leadingWhitespace) found groups := by
  induction found generalizing scan with
  | nil => exact ⟨[], Emits.refl line scan, .nil⟩
  | cons first later ih =>
      obtain ⟨own, others⟩ := List.forall_mem_cons.mp around
      obtain ⟨group, emits, at_⟩ := @delimiterUpdate_emits unicode line scan leadingWhitespace _ own
      obtain ⟨groups, emits', ats⟩ :=
        @ih (delimiterUpdate unicode leadingWhitespace scan first) others
      exact ⟨group :: groups, emits.trans emits', .cons at_ ats⟩

end Delimiters

/-! ## Lines -/

section Lines

variable {unicode : Unicode}

/-- What the reading of a line emits: at its start, at each of its delimiters in turn, and, if
nothing else, for the line as a heading. -/
structure LineEmits (line : List Char) (current : SourceFramingState)
    (update : SourceFramingLineUpdate) : Prop where
  framing : update.state.active = framingAfter current.active update.transitions
  boundaries : ∀ transition ∈ update.transitions, IsBoundary line transition.offset
  groups : ∃ opening groups closing, update.transitions = opening ++ (groups.flatten ++ closing) ∧
    Behind (byteLength line - byteLength (trimStart line)) opening ∧
    List.Forall₂ (EmittedAt (byteLength line - byteLength (trimStart line)))
      (occurrencesWhere isLineDelimiter (trim line)) groups ∧
    (closing = [] ∨ opening = [] ∧ groups.flatten = [] ∧
      closing.map (·.offset) = [byteLength line - byteLength (trimStart line)])

theorem wholeLineUpdate_emits {line trimmed : List Char} {leadingWhitespace : Nat}
    (stands : StandsAt line trimmed leadingWhitespace) (scan : LineScan) :
    ∃ closing, Emits line scan (wholeLineUpdate unicode scan leadingWhitespace trimmed) closing ∧
      (closing = [] ∨ scan.transitions = [] ∧ closing.map (·.offset) = [leadingWhitespace]) := by
  unfold wholeLineUpdate
  split
  · next none =>
      split
      · next next _ => exact ⟨_, Emits.turn stands.start next _, .inr ⟨none, rfl⟩⟩
      · exact ⟨[], Emits.refl line scan, .inl rfl⟩
  · exact ⟨[], Emits.refl line scan, .inl rfl⟩

theorem sourceFramingLineUpdate_emits (current : SourceFramingState) (line : List Char) :
    LineEmits line current (sourceFramingLineUpdate unicode current line) := by
  have stands := trim_standsAt line
  have around : ∀ entry ∈ occurrencesWhere isLineDelimiter (trim line),
      Around line (byteLength line - byteLength (trimStart line)) entry.1 entry.2.1 entry.2.2 :=
    fun entry mem => Around.of_stands stands (occurrencesWhere_spec mem).1
  obtain ⟨opening, opens, behind⟩ : EmitsBehind line
      (byteLength line - byteLength (trimStart line))
      ⟨current.active, current.suspended, [], none, false⟩
      (lineStart unicode current (byteLength line - byteLength (trimStart line)) (trim line)) :=
    (reintroduce_emits stands).trans (applySectionDenialUpdate_emits stands _)
  obtain ⟨groups, emits, ats⟩ := @delimiters_emit unicode line
    (lineStart unicode current (byteLength line - byteLength (trimStart line)) (trim line)) _ _
    around
  obtain ⟨closing, closes, last⟩ := @wholeLineUpdate_emits unicode line _ _ stands
    ((occurrencesWhere isLineDelimiter (trim line)).foldl
      (delimiterUpdate unicode (byteLength line - byteLength (trimStart line)))
      (lineStart unicode current (byteLength line - byteLength (trimStart line)) (trim line)))
  have all := opens.trans (emits.trans closes)
  have shape : (sourceFramingLineUpdate unicode current line).transitions =
      opening ++ (groups.flatten ++ closing) :=
    all.appended
  refine ⟨?_, ?_, opening, groups, closing, shape, behind, ats, ?_⟩
  · rw [shape]
    exact all.framing
  · rw [shape]
    exact all.boundaries
  · obtain rfl | ⟨none, single⟩ := last
    · exact .inl rfl
    · have before := (opens.trans emits).appended.symm.trans none
      simp only [List.nil_append, List.append_eq_nil_iff] at before
      exact .inr ⟨before.1, before.2, single⟩

end Lines

end DocumentSummarizer.Coherent
