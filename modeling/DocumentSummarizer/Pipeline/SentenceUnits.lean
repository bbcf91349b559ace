import DocumentSummarizer.Library.OptionSequence
import DocumentSummarizer.Pipeline.SourceTiles

/-! # Sentence units

The readers of sentences and forms cut a text between characters only, so none
of them fails.
-/

namespace DocumentSummarizer.Pipeline

open Library

/-- Ends that ascend from a start up to a finish, each between two characters. -/
inductive Cuts (source : List Char) (finish : Nat) : Nat → List Nat → Prop
  | nil {start : Nat} : Cuts source finish start []
  | cons {start cut : Nat} {rest : List Nat} (boundary : IsBoundary source cut)
      (lower : start ≤ cut) (upper : cut ≤ finish) (later : Cuts source finish cut rest) :
      Cuts source finish start (cut :: rest)

section Cuts

variable {source : List Char} {start finish : Nat}

theorem Cuts.weaken {start' : Nat} {cuts : List Nat} (h : Cuts source finish start cuts)
    (le : start' ≤ start) : Cuts source finish start' cuts := by
  cases h with
  | nil => exact .nil
  | cons boundary lower upper later => exact .cons boundary (le.trans lower) upper later

theorem Cuts.boundary {cuts : List Nat} {cut : Nat} (h : Cuts source finish start cuts)
    (mem : cut ∈ cuts) : IsBoundary source cut := by
  induction h with
  | nil => exact absurd mem List.not_mem_nil
  | cons boundary _ _ _ ih =>
      rcases List.mem_cons.mp mem with rfl | later
      · exact boundary
      · exact ih later

theorem located_cuts {front back : List Char} {pieces : List (List Char)} {shift base : Nat}
    (placed : shift + base = byteLength front) :
    Cuts (front ++ (pieces.flatten ++ back)) (byteLength front + byteLength pieces.flatten)
      (byteLength front) ((located base pieces).map fun piece => shift + piece.finish) := by
  induction pieces generalizing front base with
  | nil => exact .nil
  | cons piece pieces ih =>
      have next := @ih (front ++ piece) (base + byteLength piece)
        (by rw [byteLength_append]; omega)
      have here : shift + (base + byteLength piece) = byteLength (front ++ piece) := by
        rw [byteLength_append]
        omega
      rw [located, List.map_cons, List.flatten_cons, byteLength_append, here]
      rw [List.append_assoc, byteLength_append, Nat.add_assoc, ← byteLength_append] at next
      rw [List.append_assoc]
      refine .cons ⟨front ++ piece, pieces.flatten ++ back, by simp, rfl⟩ ?_ ?_ ?_
      · rw [byteLength_append]
        omega
      · rw [byteLength_append]
        omega
      · rw [byteLength_append] at next ⊢
        exact next

theorem slice_cuts {text : List Char} {pieces : List (List Char)} {shift base : Nat}
    (sliced : byteSlice source start finish = some text) (partition : pieces.flatten = text)
    (placed : shift + base = start) :
    Cuts source finish start ((located base pieces).map fun piece => shift + piece.finish) := by
  subst partition
  obtain ⟨front, back, rfl, rfl, rfl⟩ := byteSlice_eq_some.mp sliced
  exact located_cuts placed

end Cuts

variable {tables : SentenceTables}

/-! ## Sentences -/

section Sentences

variable {source text : List Char} {start finish : Nat}

/-- A unit that may end somewhere is visible. -/
theorem sentenceBoundary_spec {sourceEnd : Nat} (legacyShort : Bool)
    (sliced : byteSlice source start finish = some text)
    (boundary : IsBoundary source sourceEnd) (le : finish ≤ sourceEnd) :
    ∃ safe, sentenceBoundary tables source start finish sourceEnd legacyShort = some safe ∧
      (safe = true → blank text = false) := by
  obtain ⟨rest, later⟩ :=
    byteSlice_of_boundaries (boundaries_of_slice sliced).2.1 boundary le
  unfold sentenceBoundary
  simp only [sliced, later, Option.bind_eq_bind, Option.bind_some]
  cases final : ((trimEnd text).rdropWhile (isSentenceCloser tables)).getLast? with
  | none => exact ⟨false, rfl, nofun⟩
  | some terminal =>
      have visible : blank text = false := by
        rw [Bool.eq_false_iff]
        intro empty
        rw [trimEnd_eq_nil_iff.mpr empty] at final
        cases final
      dsimp only
      split
      · exact ⟨true, rfl, fun _ => visible⟩
      split
      · exact ⟨false, rfl, nofun⟩
      split
      · exact ⟨false, rfl, nofun⟩
      split
      · exact ⟨false, rfl, nofun⟩
      · exact ⟨_, rfl, fun _ => visible⟩

theorem sentenceUnitsFrom_spec {first sourceEnd : Nat} {units : List (Nat × Nat)}
    {pieces : List Located} (tiles : Tiles source first units start)
    (boundary : IsBoundary source sourceEnd) (le : start ≤ sourceEnd)
    (cuts : Cuts source sourceEnd start (pieces.map (·.finish))) :
    ∃ all tail, sentenceUnitsFrom tables source sourceEnd units start pieces = some (all, tail) ∧
      Tiles source first all tail ∧ tail ≤ sourceEnd := by
  induction pieces generalizing units start with
  | nil => exact ⟨units, start, rfl, tiles, le⟩
  | cons proposed rest ih =>
      cases cuts with
      | cons here lower upper later =>
          obtain ⟨text, sliced⟩ :=
            byteSlice_of_boundaries (tiles_boundaries tiles).2 here lower
          obtain ⟨safe, decided, -⟩ :=
            @sentenceBoundary_spec tables _ _ _ _ _ true sliced boundary upper
          rw [sentenceUnitsFrom, decided, Option.bind_eq_bind, Option.bind_some]
          split
          · obtain ⟨unit, found, unit_tiles⟩ := trimmedUnit_tiles sliced
            rw [found, Option.bind_eq_bind, Option.bind_some]
            exact ih (tiles.append BlankBetween.trans unit_tiles) upper later
          · exact ih tiles le (later.weaken lower)

theorem sentenceUnitsV13_spec (source : List Char) :
    ∃ units tail, sentenceUnitsV13 tables source = some (units, tail) ∧
      Tiles source 0 units tail ∧ tail ≤ byteLength (trimEnd source) := by
  obtain ⟨unit, found, shape⟩ := trimmedUnit_spec (byteSlice_whole source)
  rw [trimmedUnit, byteSlice_whole, Option.map_some] at found
  obtain rfl := Option.some.inj found
  simp only [Nat.zero_add] at shape
  unfold sentenceUnitsV13
  split at shape
  next empty =>
    dsimp only
    rw [if_pos (Nat.le_of_not_lt shape.2)]
    refine ⟨_, _, rfl, ?_, le_rfl⟩
    rw [trimEnd_eq_nil_iff.mpr empty]
    exact .done (blankBetween_self (isBoundary_zero source))
  next =>
    obtain ⟨before, ⟨text, sliced, trimmed⟩, after⟩ := shape
    obtain ⟨first, last, le⟩ := boundaries_of_slice sliced
    have visible := TrimmedBetween.lt ⟨text, sliced, trimmed⟩
    dsimp only
    rw [if_neg (Nat.not_le_of_lt visible), sliced, Option.bind_eq_bind, Option.bind_some]
    apply sentenceUnitsFrom_spec (.done before) last le
    have cuts := slice_cuts sliced (tables.sentences_flatten text)
      (Nat.zero_add (byteLength source - byteLength (trimStart source)))
    simpa only [Nat.zero_add] using cuts

end Sentences

/-! ## Forms -/

section Forms

def Sliced (text : List Char) (start finish : Nat) : Prop :=
  ∃ part, byteSlice text start finish = some part

variable {text : List Char}

theorem Sliced.trans {a b c : Nat} (first : Sliced text a b) (second : Sliced text b c) :
    Sliced text a c := by
  obtain ⟨_, left⟩ := first
  obtain ⟨_, right⟩ := second
  exact ⟨_, byteSlice_append left right⟩

theorem splitOnceWhere_spec {separates : Char → Bool} {front back : List Char}
    (h : splitOnceWhere separates text = some (front, back)) :
    ∃ c, separates c = true ∧ text = front ++ c :: back := by
  induction text generalizing front with
  | nil => cases h
  | cons c rest ih =>
      rw [splitOnceWhere] at h
      split at h
      next here =>
        obtain ⟨rfl, rfl⟩ := Prod.mk.inj (Option.some.inj h)
        exact ⟨c, here, rfl⟩
      next =>
        obtain ⟨⟨inner, _⟩, found, same⟩ := Option.map_eq_some_iff.mp h
        obtain ⟨rfl, rfl⟩ := Prod.mk.inj same
        obtain ⟨d, separated, rfl⟩ := ih found
        exact ⟨d, separated, rfl⟩

theorem labelValue_spec {line value : List Char} (h : labelValue tables line = some value) :
    ∃ label trailing, line = label ++ (value ++ trailing) ∧ trimEnd line = label ++ value := by
  unfold labelValue at h
  simp only [Option.bind_eq_bind, Option.bind_eq_some_iff] at h
  obtain ⟨⟨label, rest⟩, split_once, h⟩ := h
  dsimp only at h
  split at h
  next =>
    obtain rfl := Option.some.inj h
    obtain ⟨c, -, whole⟩ := splitOnceWhere_spec split_once
    have visible : blank line = false := by
      rw [blank, whole, List.isEmpty_eq_false_iff]
      simp
    obtain ⟨front, back, parts, ended, -⟩ := trimEnd_split visible
    refine ⟨front ++ (label ++ [c]), back, ?_, ?_⟩
    · rw [whole] at parts
      simpa using parts
    · rw [ended, whole]
      simp
  next => cases h

theorem formFields_spec {front : List Char} {pieces : List (List Char)}
    {fields : List (Nat × Nat)} (whole : text = front ++ pieces.flatten)
    (placed : Tiled (Sliced text) (Sliced text) 0 fields (byteLength front)) :
    ∀ all, formFields tables fields (located (byteLength front) pieces) = some all →
      Tiled (Sliced text) (Sliced text) 0 all (byteLength text) := by
  induction pieces generalizing front fields with
  | nil =>
      intro all h
      obtain rfl := Option.some.inj h
      rw [List.flatten_nil, List.append_nil] at whole
      rw [whole] at placed ⊢
      exact placed
  | cons line pieces ih =>
      intro all h
      have next_whole : text = (front ++ line) ++ pieces.flatten := by
        rw [whole, List.flatten_cons, List.append_assoc]
      have line_slice : byteSlice text (byteLength front) (byteLength front + byteLength line) =
          some line := byteSlice_eq_some.mpr ⟨front, pieces.flatten, whole, rfl, rfl⟩
      have ahead := @ih (front ++ line)
      rw [byteLength_append] at ahead
      rw [located, formFields] at h
      split at h
      next value found =>
        obtain ⟨label, trailing, parts, ended⟩ := labelValue_spec found
        dsimp only at parts ended
        have start : byteLength front + byteLength (trimEnd line) - byteLength value =
            byteLength front + byteLength label := by
          rw [ended, byteLength_append]
          omega
        simp only [start] at h
        have label_slice : byteSlice text (byteLength front)
            (byteLength front + byteLength label) = some label := by
          refine byteSlice_eq_some.mpr ⟨front, value ++ (trailing ++ pieces.flatten), ?_, rfl, rfl⟩
          rw [whole, List.flatten_cons, parts]
          simp
        have rest_slice : byteSlice text (byteLength front + byteLength label)
            (byteLength front + byteLength line) = some (value ++ trailing) := by
          refine byteSlice_eq_some.mpr ⟨front ++ label, pieces.flatten, ?_, ?_, ?_⟩
          · rw [whole, List.flatten_cons, parts]
            simp
          · rw [byteLength_append]
          · rw [parts]
            simp [Nat.add_assoc]
        apply ahead next_whole _ _ h
        exact placed.concat (@Sliced.trans text)
          ⟨[], byteSlice_empty (boundaries_of_slice label_slice).1⟩ ⟨_, label_slice⟩
          ⟨_, rest_slice⟩
      next =>
        split at h
        · cases h
        · apply ahead next_whole _ _ h
          have joined := placed.append (@Sliced.trans text) (.done ⟨_, line_slice⟩)
          rwa [List.append_nil] at joined

theorem valuesAreSentences_total {fields : List (Nat × Nat)} {start : Nat}
    (placed : Tiled (Sliced text) (Sliced text) start fields (byteLength text)) :
    ∃ answer, valuesAreSentences tables text fields = some answer := by
  induction fields generalizing start with
  | nil => exact ⟨_, rfl⟩
  | cons field rest ih =>
      cases placed with
      | tile _ _ later =>
          have sliced : Sliced text field.2 ((rest.head?.map (·.1)).getD (byteLength text)) := by
            cases later with
            | done last => exact last
            | tile before _ _ => exact before
          obtain ⟨value, found⟩ := sliced
          obtain ⟨units, tail, read, tiles, bounded⟩ := @sentenceUnitsV13_spec tables value
          obtain ⟨answer, others⟩ := ih later
          obtain ⟨_, last, rest_le⟩ := boundaries_of_slice (byteSlice_whole value)
          have ended : byteLength (trimEnd value) ≤ byteLength value := by
            obtain ⟨back, whole⟩ := List.rdropWhile_prefix isWhitespace (l := value)
            have size := congrArg byteLength whole
            rw [byteLength_append] at size
            exact Nat.le.intro size
          obtain ⟨left, remains⟩ := byteSlice_of_boundaries (tiles_boundaries tiles).2 last
            (bounded.trans ended)
          rw [valuesAreSentences, found, Option.bind_eq_bind, Option.bind_some, read]
          simp only [Option.bind_eq_bind, Option.bind_some, remains, others]
          cases tiles with
          | done =>
              simp only [Bool.false_eq_true, if_false]
              exact ⟨_, rfl⟩
          | @tile _ _ first further _ inside rest =>
              obtain ⟨_, first_slice, _⟩ := inside
              have first_le := (tiles_le rest).trans (bounded.trans ended)
              obtain ⟨after, behind⟩ := byteSlice_of_boundaries
                (boundaries_of_slice first_slice).2.1 last first_le
              simp only [behind, Option.map_some, Option.bind_some]
              split <;> exact ⟨_, rfl⟩

theorem formFieldCount_total (text : List Char) :
    ∃ count, formFieldCount tables text = some count := by
  unfold formFieldCount
  split
  · exact ⟨0, rfl⟩
  next fields found =>
    split
    · exact ⟨_, rfl⟩
    · have placed := @formFields_spec tables text [] (splitInclusive '\n' text) []
        (flatten_splitInclusive _ _).symm
        (.done ⟨[], byteSlice_empty (isBoundary_zero text)⟩) fields found
      obtain ⟨answer, read⟩ := @valuesAreSentences_total tables _ _ _ placed
      rw [read, Option.bind_eq_bind, Option.bind_some]
      cases answer <;> exact ⟨_, rfl⟩

theorem leadIn_total (text : List Char) : ∃ leads, leadIn tables text = some leads := by
  unfold leadIn
  split
  · exact ⟨_, rfl⟩
  · obtain ⟨count, counted⟩ := @formFieldCount_total tables text
    obtain ⟨ended, decided, -⟩ := @sentenceBoundary_spec tables _ _ _ _ _ false
      (byteSlice_whole text) (isBoundary_length text) le_rfl
    rw [formGroup, counted, Option.map_some, Option.bind_eq_bind, Option.bind_some, decided]
    split <;> exact ⟨_, rfl⟩

theorem retainedProseRanges_total (text : List Char) :
    ∃ ranges, retainedProseRanges tables text = some ranges := by
  obtain ⟨units, tail, read, tiles, -⟩ := @sentenceUnitsV13_spec tables text
  have each : ∀ unit ∈ units, ∃ part, byteSlice text unit.1 unit.2 = some part := by
    intro unit mem
    obtain ⟨part, sliced, _⟩ := tiles.mem mem
    exact ⟨part, sliced⟩
  obtain ⟨texts, sliced⟩ := mapM_exists each
  unfold retainedProseRanges
  simp only [read, Option.bind_eq_bind, Option.bind_some, sliced]
  exact ⟨_, rfl⟩

end Forms

end DocumentSummarizer.Pipeline
