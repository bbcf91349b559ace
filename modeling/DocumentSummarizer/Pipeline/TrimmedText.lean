import DocumentSummarizer.Pipeline.SourceText

/-! # Trimmed text

What `trim` takes away and where what it keeps stands.
-/

namespace DocumentSummarizer.Pipeline

open Library

/-- A visible text without whitespace around it. -/
structure Trimmed (text : List Char) : Prop where
  first : ∃ c, text.head? = some c ∧ isWhitespace c = false
  last : ∃ c, text.getLast? = some c ∧ isWhitespace c = false

namespace Trimmed

variable {text front middle back : List Char}

theorem ne_nil (h : Trimmed text) : text ≠ [] := by
  rintro rfl
  obtain ⟨c, found, -⟩ := h.first
  cases found

theorem byteLength_pos (h : Trimmed text) : 0 < byteLength text :=
  Library.byteLength_pos h.ne_nil

theorem trim_eq (h : Trimmed text) : trim text = text := by
  obtain ⟨c, found, visible⟩ := h.first
  have start : text.dropWhile isWhitespace = text := by
    cases text with
    | nil => cases found
    | cons d rest =>
        obtain rfl := Option.some.inj found
        exact List.dropWhile_cons_of_neg (by simp [visible])
  rw [trim, start, List.rdropWhile_eq_self_iff]
  intro nonempty
  obtain ⟨d, ends, visible⟩ := h.last
  rw [List.getLast?_eq_some_getLast nonempty] at ends
  rw [Option.some.inj ends, visible]
  exact Bool.false_ne_true

theorem blank_eq (h : Trimmed text) : blank text = false := by
  rw [blank, h.trim_eq, List.isEmpty_eq_false_iff]
  exact h.ne_nil

theorem append (first : Trimmed front) (last : Trimmed back) :
    Trimmed (front ++ (middle ++ back)) := by
  constructor
  · obtain ⟨c, found, visible⟩ := first.first
    exact ⟨c, by rw [List.head?_append_of_ne_nil _ first.ne_nil, found], visible⟩
  · obtain ⟨c, found, visible⟩ := last.last
    refine ⟨c, ?_, visible⟩
    rw [← List.append_assoc, List.getLast?_append_of_ne_nil _ last.ne_nil, found]

end Trimmed

theorem trim_split (text : List Char) :
    ∃ front back, text = front ++ (trim text ++ back) ∧ trimStart text = trim text ++ back ∧
      (∀ c ∈ front, isWhitespace c = true) ∧ ∀ c ∈ back, isWhitespace c = true := by
  refine ⟨text.takeWhile isWhitespace, (trimStart text).rtakeWhile isWhitespace, ?_, ?_, ?_, ?_⟩
  · rw [trim, trimStart, List.rdropWhile_append_rtakeWhile, List.takeWhile_append_dropWhile]
  · rw [trim, trimStart, List.rdropWhile_append_rtakeWhile]
  · exact fun c mem => List.mem_takeWhile_imp mem
  · exact fun c mem => List.mem_rtakeWhile_imp mem

theorem trimmed_trim {text : List Char} (visible : blank text = false) : Trimmed (trim text) := by
  have nonempty : trim text ≠ [] := by
    intro empty
    rw [blank, empty] at visible
    cases visible
  have ends := List.rdropWhile_last_not isWhitespace (text.dropWhile isWhitespace) nonempty
  constructor
  · cases started : trimStart text with
    | nil =>
        rw [trim, ← trimStart, started] at nonempty
        exact absurd rfl nonempty
    | cons c rest =>
        have first : isWhitespace c = false := by
          have visible := List.head?_dropWhile_not isWhitespace text
          rw [← trimStart, started] at visible
          simpa using visible
        refine ⟨c, ?_, first⟩
        have kept : trim text <+: c :: rest := by
          rw [← started]
          exact List.rdropWhile_prefix _ _
        obtain ⟨back, whole⟩ := kept
        cases shape : trim text with
        | nil => exact absurd shape nonempty
        | cons d tail =>
            rw [shape] at whole
            exact congrArg some (List.cons.inj whole).1
  · exact ⟨_, List.getLast?_eq_some_getLast nonempty, Bool.eq_false_iff.mpr ends⟩

theorem trimmed_iff {text : List Char} : Trimmed text ↔ trim text = text ∧ text ≠ [] := by
  constructor
  · exact fun h => ⟨h.trim_eq, h.ne_nil⟩
  · rintro ⟨same, nonempty⟩
    rw [← same]
    apply trimmed_trim
    rw [blank, same, List.isEmpty_eq_false_iff]
    exact nonempty

theorem byteSlice_trim {text part : List Char} {start finish : Nat}
    (sliced : byteSlice text start finish = some part) :
    let first := start + (byteLength part - byteLength (trimStart part))
    byteSlice text first (first + byteLength (trim part)) = some (trim part) := by
  obtain ⟨front, back, rfl, rfl, -⟩ := byteSlice_eq_some.mp sliced
  obtain ⟨before, after, whole, started, -, -⟩ := trim_split part
  have size : byteLength part = byteLength before + byteLength (trimStart part) := by
    rw [started, ← byteLength_append, ← whole]
  refine byteSlice_eq_some.mpr ⟨front ++ before, after ++ back, ?_, ?_, rfl⟩
  · nth_rewrite 1 [whole]
    simp
  · rw [byteLength_append]
    omega

end DocumentSummarizer.Pipeline
