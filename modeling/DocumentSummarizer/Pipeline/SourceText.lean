import DocumentSummarizer.Library.Utf8Text
import DocumentSummarizer.Library.Splitting
import DocumentSummarizer.Pipeline.Text

/-! # Source text

The string operations that the readers of source lines use, over characters.
-/

namespace DocumentSummarizer.Pipeline

open Library

/-- What the readers take from the Unicode tables, and what they rely on: a space is neither a
letter nor a digit, and the case of a letter does not depend on what is beyond a space. -/
structure Unicode where
  isAlphabetic : Char → Bool
  isNumeric : Char → Bool
  isUppercase : Char → Bool
  isLowercase : Char → Bool
  /-- `str::to_lowercase` -/
  toLowercase : List Char → List Char
  space_alphanumeric : (isAlphabetic ' ' || isNumeric ' ') = false
  toLowercase_nil : toLowercase [] = []
  toLowercase_space : ∀ front back,
    toLowercase (front ++ ' ' :: back) = toLowercase front ++ ' ' :: toLowercase back

def Unicode.isAlphanumeric (unicode : Unicode) (c : Char) : Bool :=
  unicode.isAlphabetic c || unicode.isNumeric c

/-- The tables as they are on ASCII text. -/
def Unicode.ascii : Unicode where
  isAlphabetic := Char.isAlpha
  isNumeric := Char.isDigit
  isUppercase := Char.isUpper
  isLowercase := Char.isLower
  toLowercase := List.map Char.toLower
  space_alphanumeric := by decide
  toLowercase_nil := rfl
  toLowercase_space := by
    intro front back
    rw [List.map_append]
    rfl

/-- Texts are equal when their characters are. -/
instance lawfulText : LawfulBEq (List Char) :=
  inferInstance

/-- `str::trim_start` -/
def trimStart (text : List Char) : List Char :=
  text.dropWhile isWhitespace

/-- `str::trim_end` -/
def trimEnd (text : List Char) : List Char :=
  text.rdropWhile isWhitespace

/-- `text.trim().is_empty()` -/
def blank (text : List Char) : Bool :=
  (trim text).isEmpty

/-- `str::split_whitespace` -/
def splitWhitespace (text : List Char) : List (List Char) :=
  (splitWhere isWhitespace text).filter (!·.isEmpty)

/-- `str::split_once` at the first character of a kind. -/
def splitOnceWhere (separates : Char → Bool) : List Char → Option (List Char × List Char)
  | [] => none
  | c :: rest =>
    if separates c then some ([], rest)
    else (splitOnceWhere separates rest).map fun parts => (c :: parts.1, parts.2)

/-- `str::split_once` at the first occurrence of a text. -/
def splitOnceText (pattern : List Char) : List Char → Option (List Char × List Char)
  | [] => if pattern = [] then some ([], []) else none
  | c :: rest =>
    if pattern.isPrefixOf (c :: rest) then some ([], (c :: rest).drop pattern.length)
    else (splitOnceText pattern rest).map fun parts => (c :: parts.1, parts.2)

/-- `str::strip_prefix` -/
def stripStart (pattern text : List Char) : Option (List Char) :=
  if pattern.isPrefixOf text then some (text.drop pattern.length) else none

/-- `str::strip_suffix` with a set of characters. -/
def stripEndWhere (strips : Char → Bool) (text : List Char) : Option (List Char) :=
  match text.getLast? with
  | some c => if strips c then some text.dropLast else none
  | none => none

/-- `str::contains` -/
def containsText (pattern : List Char) (text : List Char) : Bool :=
  text.tails.any pattern.isPrefixOf

/-- `text.ends_with([..])` -/
def endsWith (kinds : List Char) (text : List Char) : Bool :=
  text.getLast?.any (· ∈ kinds)

/-- `words.join(separator)` -/
def joined (separator : List Char) (words : List (List Char)) : List Char :=
  List.intercalate separator words

def digitValue (c : Char) : Nat :=
  c.toNat - '0'.toNat

def withoutPlus : List Char → List Char
  | '+' :: rest => rest
  | text => text

/-- `str::parse::<u32>`: one or more ASCII digits, perhaps after a plus sign. -/
def parseU32 (text : List Char) : Option Nat :=
  let digits := withoutPlus text
  if digits = [] ∨ digits.all Char.isDigit = false then none
  else toU32 (digits.foldl (fun value c => 10 * value + digitValue c) 0)

/-! ## Facts -/

theorem splitOnceText_spec {pattern text front back : List Char}
    (h : splitOnceText pattern text = some (front, back)) : text = front ++ (pattern ++ back) := by
  induction text generalizing front with
  | nil =>
      unfold splitOnceText at h
      split at h
      next empty =>
        obtain ⟨rfl, rfl⟩ := Prod.mk.inj (Option.some.inj h)
        rw [empty]
        rfl
      next => cases h
  | cons c rest ih =>
      unfold splitOnceText at h
      split at h
      next starts =>
        obtain ⟨rfl, rfl⟩ := Prod.mk.inj (Option.some.inj h)
        exact (List.prefix_iff_eq_append.mp (List.isPrefixOf_iff_prefix.mp starts)).symm
      next =>
        obtain ⟨parts, found, same⟩ := Option.map_eq_some_iff.mp h
        obtain ⟨rfl, rfl⟩ := Prod.mk.inj same
        rw [List.cons_append, ← ih found]

theorem stripStart_spec {pattern text rest : List Char}
    (h : stripStart pattern text = some rest) : text = pattern ++ rest := by
  unfold stripStart at h
  split at h
  next starts =>
    obtain rfl := Option.some.inj h
    exact (List.prefix_iff_eq_append.mp (List.isPrefixOf_iff_prefix.mp starts)).symm
  next => cases h

theorem parseU32_chars {text : List Char} {n : Nat} (h : parseU32 text = some n) :
    ∀ c ∈ text, c = '+' ∨ c.isDigit = true := by
  simp only [parseU32] at h
  split at h
  next => cases h
  next accepted =>
    simp only [not_or, Bool.not_eq_false, List.all_eq_true] at accepted
    intro c mem
    by_cases plus : c = '+'
    · exact .inl plus
    · right
      apply accepted.2 c
      unfold withoutPlus
      split
      next => exact List.mem_of_ne_of_mem plus mem
      next => exact mem

/-! ## Words -/

section Words

variable {unicode : Unicode}

theorem splitWhitespace_append {separator : Char} (separated : isWhitespace separator = true)
    (front back : List Char) :
    splitWhitespace (front ++ separator :: back) =
      splitWhitespace front ++ splitWhitespace back := by
  rw [splitWhitespace, splitWhere_append separated, List.filter_append]
  rfl

@[simp] theorem splitWhitespace_nil : splitWhitespace [] = [] :=
  rfl

theorem splitWhitespace_cons {c : Char} (separated : isWhitespace c = true) (rest : List Char) :
    splitWhitespace (c :: rest) = splitWhitespace rest := by
  have h := splitWhitespace_append separated [] rest
  simpa using h

theorem splitWhitespace_concat {c : Char} (separated : isWhitespace c = true)
    (text : List Char) : splitWhitespace (text ++ [c]) = splitWhitespace text := by
  rw [splitWhitespace_append separated, splitWhitespace_nil, List.append_nil]

theorem splitWhitespace_trim (text : List Char) :
    splitWhitespace (trim text) = splitWhitespace text := by
  have start : ∀ text : List Char,
      splitWhitespace (text.dropWhile isWhitespace) = splitWhitespace text := by
    intro text
    induction text with
    | nil => rfl
    | cons c rest ih =>
        rw [List.dropWhile_cons]
        split
        next separated => rw [ih, splitWhitespace_cons separated]
        next => rfl
  have finish : ∀ text : List Char,
      splitWhitespace (text.rdropWhile isWhitespace) = splitWhitespace text := by
    intro text
    induction text using List.reverseRecOn with
    | nil => rfl
    | append_singleton text c ih =>
        by_cases separated : isWhitespace c = true
        · rw [List.rdropWhile_concat_pos _ _ _ separated, ih, splitWhitespace_concat separated]
        · rw [List.rdropWhile_concat_neg _ _ _ separated]
  rw [trim, finish, start]

theorem joined_cons_cons (separator word next : List Char) (rest : List (List Char)) :
    joined separator (word :: next :: rest) =
      word ++ (separator ++ joined separator (next :: rest)) := by
  simp [joined, List.intercalate]

theorem toLowercase_joined (words : List (List Char)) :
    unicode.toLowercase (joined [' '] words) = joined [' '] (words.map unicode.toLowercase) := by
  induction words with
  | nil => exact unicode.toLowercase_nil
  | cons word rest ih =>
      cases rest with
      | nil => simp [joined, List.intercalate]
      | cons next rest =>
          rw [joined_cons_cons, List.singleton_append, unicode.toLowercase_space, ih]
          simp only [List.map_cons]
          rw [joined_cons_cons, List.singleton_append]

theorem splitWhere_joined {separates : Char → Bool} (separated : separates ' ' = true)
    {words : List (List Char)} (nonempty : words ≠ []) :
    splitWhere separates (joined [' '] words) = words.flatMap (splitWhere separates) := by
  induction words with
  | nil => exact absurd rfl nonempty
  | cons word rest ih =>
      cases rest with
      | nil => simp [joined, List.intercalate]
      | cons next rest =>
          rw [joined_cons_cons, List.singleton_append, splitWhere_append separated, ih nofun]
          rfl

end Words

theorem blank_iff {text : List Char} :
    blank text = true ↔ ∀ c ∈ text, isWhitespace c = true := by
  have h := @isBlank_iff (String.ofList text)
  simpa [isBlank, blank] using h

end DocumentSummarizer.Pipeline
