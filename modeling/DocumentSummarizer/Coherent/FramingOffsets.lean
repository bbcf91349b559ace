import DocumentSummarizer.Coherent.SourceFramingLines

/-! # Offsets of framing transitions

Every offset that a reader of a line computes is between two characters of the line.
-/

namespace DocumentSummarizer.Coherent

open Library Pipeline

/-! ## Parts of a text -/

/-- A part of a text stands at an offset of it. -/
def StandsAt (text part : List Char) (offset : Nat) : Prop :=
  ∃ front back, text = front ++ (part ++ back) ∧ byteLength front = offset

namespace StandsAt

variable {text part rest front back : List Char} {base offset : Nat}

theorem trans (outer : StandsAt text part base) (inner : StandsAt part rest offset) :
    StandsAt text rest (base + offset) := by
  obtain ⟨front, back, rfl, rfl⟩ := outer
  obtain ⟨front', back', rfl, rfl⟩ := inner
  exact ⟨front ++ front', back' ++ back, by simp, by simp⟩

theorem boundary (stands : StandsAt text part base) (inside : IsBoundary part offset) :
    IsBoundary text (base + offset) := by
  obtain ⟨front, back, rfl, rfl⟩ := stands
  obtain ⟨front', back', rfl, rfl⟩ := inside
  exact ⟨front ++ front', back' ++ back, by simp, by simp⟩

theorem start (stands : StandsAt text part base) : IsBoundary text base :=
  stands.boundary (isBoundary_zero part)

theorem of_suffix (ends : rest <:+ text) :
    StandsAt text rest (byteLength text - byteLength rest) := by
  obtain ⟨front, rfl⟩ := ends
  exact ⟨front, [], by simp, by simp⟩

theorem of_prefix (begins : front <+: text) : StandsAt text front 0 := by
  obtain ⟨back, rfl⟩ := begins
  exact ⟨[], back, rfl, rfl⟩

theorem behind (front : List Char) (c : Char) (back : List Char) :
    StandsAt (front ++ c :: back) back (byteLength front + c.utf8Size) :=
  ⟨front ++ [c], [], by simp, by simp⟩

end StandsAt

section Suffixes

variable {text rest front : List Char} {kind : Char → Bool}

theorem suffix_boundary (ends : rest <:+ text) :
    IsBoundary text (byteLength text - byteLength rest) :=
  (StandsAt.of_suffix ends).start

theorem trimStart_suffix (text : List Char) : trimStart text <:+ text :=
  List.dropWhile_suffix isWhitespace

theorem trim_standsAt (text : List Char) :
    StandsAt text (trim text) (byteLength text - byteLength (trimStart text)) := by
  have begins : StandsAt (trimStart text) (trim text) 0 :=
    StandsAt.of_prefix (List.rdropWhile_prefix _ _)
  exact (StandsAt.of_suffix (trimStart_suffix text)).trans begins

theorem trimContinuation_suffix (text : List Char) : trimContinuation text <:+ text :=
  List.dropWhile_suffix _

theorem splitOnceWhere_suffix (split : splitOnceWhere kind text = some (front, rest)) :
    rest <:+ text := by
  induction text generalizing front with
  | nil => cases split
  | cons c later ih =>
      unfold splitOnceWhere at split
      split at split
      · cases split
        exact List.suffix_cons c _
      · obtain ⟨⟨front', rest'⟩, found, same⟩ := Option.map_eq_some_iff.mp split
        cases same
        exact (ih found).trans (List.suffix_cons c _)

theorem continuationAfterCoordinator_suffix (unicode : Unicode) (text : List Char) :
    continuationAfterCoordinator unicode text <:+ text := by
  unfold continuationAfterCoordinator
  refine (trimContinuation_suffix _).trans ?_
  cases split : splitOnceWhere (!unicode.isAlphanumeric ·) (trimContinuation text) with
  | none => exact List.nil_suffix
  | some parts => exact (splitOnceWhere_suffix split).trans (trimContinuation_suffix text)

theorem occurrencesWhere_spec {found : List Char × Char × List Char}
    (mem : found ∈ occurrencesWhere kind text) :
    text = found.1 ++ found.2.1 :: found.2.2 ∧ kind found.2.1 = true := by
  induction text generalizing found with
  | nil => exact absurd mem List.not_mem_nil
  | cons c text ih =>
      have later : found ∈ (occurrencesWhere kind text).map (fun found => (c :: found.1, found.2)) →
          c :: text = found.1 ++ found.2.1 :: found.2.2 ∧ kind found.2.1 = true := by
        intro mem
        obtain ⟨inner, inside, rfl⟩ := List.mem_map.mp mem
        obtain ⟨shape, own⟩ := ih inside
        exact ⟨congrArg (c :: ·) shape, own⟩
      simp only [occurrencesWhere] at mem
      split at mem
      · next own =>
          obtain rfl | mem := List.mem_cons.mp mem
          · exact ⟨rfl, own⟩
          · exact later mem
      · exact later mem

theorem splitOnceText_found (within : rest <:+: text) : splitOnceText rest text ≠ none := by
  obtain ⟨front, back, shape⟩ := within
  induction text generalizing front with
  | nil =>
      have empty : rest = [] := by
        simp only [List.append_eq_nil_iff] at shape
        exact shape.1.2
      simp [splitOnceText, empty]
  | cons c text ih =>
      unfold splitOnceText
      split
      · simp
      · next elsewhere =>
          cases front with
          | nil =>
              have begins : rest.isPrefixOf (c :: text) = true := by
                rw [List.isPrefixOf_iff_prefix]
                exact ⟨back, shape⟩
              exact absurd begins elsewhere
          | cons d front =>
              have tail : front ++ rest ++ back = text := (List.cons.inj shape).2
              intro none
              exact ih front tail (Option.map_eq_none_iff.mp none)

end Suffixes

/-! ## Headings -/

section Headings

variable {heading title : List Char}

theorem trim_inside (text : List Char) : trim text <:+: text :=
  (List.rdropWhile_prefix _ _).isInfix.trans (trimStart_suffix text).isInfix

theorem markedHeadingTitle_inside (marked : markedHeadingTitle heading = some title) :
    title <:+: heading := by
  unfold markedHeadingTitle at marked
  dsimp only at marked
  split at marked
  · cases marked
  · split at marked
    · cases marked
      exact (trim_inside _).trans (List.dropWhile_suffix _).isInfix
    · cases marked

/-- What is behind the last character of another kind in a part that a text starts with. -/
theorem standsAt_rtakeWhile {kind : Char → Bool} {part text : List Char} (begins : part <+: text) :
    StandsAt text (text.drop (part.length - (part.rtakeWhile kind).length))
      (byteLength (part.rdropWhile kind)) := by
  obtain ⟨back, rfl⟩ := begins
  have parts := List.rdropWhile_append_rtakeWhile (p := kind) (l := part)
  have before : part.length - (part.rtakeWhile kind).length = (part.rdropWhile kind).length := by
    have lengths := congrArg List.length parts
    rw [List.length_append] at lengths
    omega
  refine ⟨part.rdropWhile kind, [], ?_, rfl⟩
  have shape : part ++ back = part.rdropWhile kind ++ (part.rtakeWhile kind ++ back) := by
    rw [← List.append_assoc, parts]
  rw [before, List.append_nil, shape, List.drop_left]

/-- The offset of a heading in front of a delimiter. -/
theorem inlineHeadingPrefix_boundary (front : List Char) :
    IsBoundary front (inlineHeadingPrefix front).2 := by
  have parts := List.rdropWhile_append_rtakeWhile (p := (!isHeadingBreak ·)) (l := front)
  unfold inlineHeadingPrefix
  dsimp only
  split
  · have begins : trimEnd (front.rdropWhile (!isHeadingBreak ·) ++
        (front.rtakeWhile (!isHeadingBreak ·)).takeWhile isWhitespace) <+: front := by
      refine (List.rdropWhile_prefix _ _).trans ?_
      conv => rhs; rw [← parts]
      exact (List.prefix_append_right_inj _).mpr (List.takeWhile_prefix _)
    exact (standsAt_rtakeWhile begins).boundary (suffix_boundary (trimStart_suffix _))
  · refine StandsAt.boundary ?_ (suffix_boundary (trimStart_suffix _))
    exact ⟨_, [], by simp, rfl⟩

end Headings

/-! ## Continuations -/

section Continuations

variable {unicode : Unicode} {text : List Char} {words : List ClauseWord}

theorem flatten_splitInclusiveWhere (separates : Char → Bool) (text : List Char) :
    (splitInclusiveWhere separates text).flatten = text := by
  induction text with
  | nil => rfl
  | cons c rest ih =>
      unfold splitInclusiveWhere
      split
      · simp [ih]
      · cases found : splitInclusiveWhere separates rest with
        | nil =>
            rw [found] at ih
            simp [← ih]
        | cons piece later =>
            rw [found] at ih
            simp [← ih]

/-- Every word read so far stands between two characters of the text. -/
def WordsStand (text : List Char) (words : List ClauseWord) : Prop :=
  ∀ word ∈ words, IsBoundary text word.start

theorem readClauseWord_stand {piece : List Char} {clauseStart segmentStart : Nat}
    (here : StandsAt text piece segmentStart) (stand : WordsStand text words) :
    WordsStand text (readClauseWord unicode words clauseStart segmentStart piece) := by
  unfold readClauseWord
  dsimp only
  split
  · intro entry mem
    obtain old | new := List.mem_append.mp mem
    · exact stand entry old
    · rw [List.mem_singleton.mp new]
      exact here.boundary ⟨_, _, List.takeWhile_append_dropWhile.symm, rfl⟩
  · exact stand

theorem clauseWordsFrom_stand {pieces : List (List Char)} {clauseStart : Nat}
    {consumed : List Char} (shape : text = consumed ++ pieces.flatten)
    (stand : WordsStand text words) :
    WordsStand text (clauseWordsFrom unicode words clauseStart (byteLength consumed) pieces) := by
  induction pieces generalizing words clauseStart consumed with
  | nil => exact stand
  | cons piece later ih =>
      have here : StandsAt text piece (byteLength consumed) :=
        ⟨consumed, later.flatten, by simpa using shape, rfl⟩
      have read := @readClauseWord_stand unicode _ _ _ clauseStart _ here stand
      have next : text = (consumed ++ piece) ++ later.flatten := by simpa using shape
      unfold clauseWordsFrom
      dsimp only
      split
      · exact read
      · rw [← byteLength_append]
        exact ih next read

theorem clauseWords_stand (text : List Char) : WordsStand text (clauseWords unicode text) :=
  @clauseWordsFrom_stand unicode text [] _ 0 []
    (flatten_splitInclusiveWhere (!unicode.isAlphanumeric ·) text).symm
    fun _ mem => absurd mem List.not_mem_nil

theorem clauseOffset_boundary (stand : WordsStand text words) {position offset : Nat}
    (found : clauseOffset words position = some offset) : IsBoundary text offset := by
  unfold clauseOffset at found
  cases own : words[position]? with
  | none =>
      rw [own] at found
      cases found
  | some word =>
      cases first : words[word.clauseStart]? with
      | none =>
          simp only [own, first, bind, Option.bind] at found
          cases found
      | some entry =>
          simp only [own, first, bind, Option.bind] at found
          cases found
          exact stand entry (List.mem_of_getElem? first)

theorem sourceFramingReintroductionOffset_boundary {activeFraming : SourceFraming}
    {skipCoordinator : Bool} {offset : Nat}
    (found : sourceFramingReintroductionOffset unicode text activeFraming skipCoordinator =
      some offset) :
    IsBoundary text offset := by
  have body : (if skipCoordinator then continuationAfterCoordinator unicode text else text) <:+
      text := by
    split
    · exact continuationAfterCoordinator_suffix unicode text
    · exact List.suffix_rfl
  have contrast := (StandsAt.of_suffix body).trans
    (StandsAt.of_suffix (trimContinuation_suffix _))
  unfold sourceFramingReintroductionOffset at found
  dsimp only at found
  generalize (if skipCoordinator then continuationAfterCoordinator unicode text else text) =
    continuationBody at *
  split at found
  · cases found
  · split at found
    · cases found
      split
      · exact isBoundary_zero text
      · exact contrast.start
    · split at found
      · cases found
      · split at found
        · cases found
          exact isBoundary_zero text
        · cases predicate : predicateStart (clauseWords unicode (trimContinuation continuationBody))
            (trimContinuation continuationBody) activeFraming with
          | none =>
              simp only [predicate, bind, Option.bind] at found
              cases found
          | some position =>
              cases clause : clauseOffset
                  (clauseWords unicode (trimContinuation continuationBody)) position with
              | none =>
                  simp only [predicate, clause, bind, Option.bind] at found
                  cases found
              | some start =>
                  simp only [predicate, clause, bind, Option.bind, Option.some.injEq] at found
                  rw [← found]
                  split
                  · exact isBoundary_zero text
                  · exact contrast.boundary
                      (clauseOffset_boundary (clauseWords_stand _) clause)

end Continuations

/-! ## Denials -/

section Denials

variable {unicode : Unicode} {text : List Char} {activeFraming : SourceFraming}

theorem coordinatedClauseBoundary_suffix {clause front rest : List Char}
    (found : coordinatedClauseBoundary unicode text clause activeFraming = some (front, rest)) :
    rest <:+ text := by
  unfold coordinatedClauseBoundary at found
  split at found
  · cases found
  · obtain ⟨⟨before, delimiter, behind⟩, mem, same⟩ := List.exists_of_findSome?_eq_some found
    obtain ⟨shape, -⟩ := occurrencesWhere_spec mem
    obtain ⟨-, parts⟩ := Option.ite_none_right_eq_some.mp same
    cases parts
    exact ⟨front ++ [delimiter], by simpa using shape.symm⟩

theorem denialSentence_suffix (text : List Char) :
    (denialSentence unicode text activeFraming).2 <:+ text := by
  unfold denialSentence
  split
  · next parts abbreviated =>
      unfold boundedNotApplicableAbbreviation at abbreviated
      dsimp only at abbreviated
      split at abbreviated
      · split at abbreviated
        · cases abbreviated
        · cases abbreviated
          exact List.drop_suffix 3 text
      · cases abbreviated
  · dsimp only
    cases boundary : coordinatedClauseBoundary unicode text
        (text.takeWhile (!isSourceSentenceTerminal ·)) activeFraming with
    | none => exact List.dropWhile_suffix _
    | some parts => exact coordinatedClauseBoundary_suffix boundary

/-- A denial and what takes its framing up again stand between characters. -/
structure DenialStands (text : List Char) (update : SectionDenialUpdate) : Prop where
  denial : IsBoundary text update.denialOffset
  reintroduction : ∀ offset, update.reintroductionOffset = some offset → IsBoundary text offset

theorem sectionDenialUpdate_stands {allowBareNoAnswer : Bool} {update : SectionDenialUpdate}
    (found : sectionDenialUpdateWithAnswerContext unicode text activeFraming allowBareNoAnswer =
      some update) : DenialStands text update := by
  have trimmed := StandsAt.of_suffix (trimStart_suffix text)
  have within : (markedHeadingTitle (trimStart text)).getD (trimStart text) <:+:
      trimStart text := by
    cases marked : markedHeadingTitle (trimStart text) with
    | none => exact List.infix_rfl
    | some title => exact markedHeadingTitle_inside marked
  unfold sectionDenialUpdateWithAnswerContext at found
  dsimp only at found
  generalize (markedHeadingTitle (trimStart text)).getD (trimStart text) = title at *
  cases place : splitOnceText title (trimStart text) with
  | none => exact absurd place (splitOnceText_found within)
  | some parts =>
      have stands : StandsAt text title
          (byteLength text - byteLength (trimStart text) + byteLength parts.1) :=
        trimmed.trans ⟨parts.1, parts.2, splitOnceText_spec place, rfl⟩
      have remainder := stands.trans (StandsAt.of_suffix
        (@denialSentence_suffix unicode activeFraming title))
      have continuation := remainder.trans (StandsAt.of_suffix (List.dropWhile_suffix
        (p := fun c => isWhitespace c || isSourceSentenceTerminal c)))
      rw [place] at found
      split at found
      · cases found
      · split at found
        · cases found
        · cases found
          refine ⟨trimmed.start, ?_⟩
          intro offset reintroduced
          obtain ⟨inner, taken, rfl⟩ := Option.map_eq_some_iff.mp reintroduced
          exact continuation.boundary (sourceFramingReintroductionOffset_boundary taken)

end Denials

end DocumentSummarizer.Coherent
