import DocumentSummarizer.Pipeline.TrimmedText

/-! # Pages without content

Some pages hold nothing but the noise of a scan or a date stamp. A page is omitted for
that only when nothing on it can be a word or a value.
-/

namespace DocumentSummarizer.Pipeline

open Library

inductive Omission where
  | scanNoise
  | datePageStamp
  deriving DecidableEq, Repr

/-- The general categories that the page rules tell apart. -/
inductive Category where
  | letter
  | mark
  | number
  | punctuation
  | currencySymbol
  | otherSymbol
  | separator
  | control
  | format
  | privateUse
  | unassigned
  deriving DecidableEq, Repr

/-- What the page rules take from the Unicode tables, and what they rely on: the category
of the ASCII letters and digits. -/
structure CategoryTables where
  category : Char → Category
  isNumeric : Char → Bool
  isAlphabetic : Char → Bool
  letter_of_alpha : ∀ c : Char, c.isAlpha = true → category c = .letter
  number_of_digit : ∀ c : Char, c.isDigit = true → category c = .number

/-- The tables as they are on ASCII text. -/
def CategoryTables.ascii : CategoryTables where
  category c :=
    if c.isAlpha then .letter
    else if c.isDigit then .number
    else if c = '$' then .currencySymbol
    else if c = '+' ∨ c = '<' ∨ c = '=' ∨ c = '>' ∨ c = '^' ∨ c = '|' ∨ c = '~' ∨ c.toNat = 96 then
      .otherSymbol
    else if c = ' ' then .separator
    else if c.toNat < 32 ∨ c.toNat = 127 then .control
    else .punctuation
  isNumeric := Char.isDigit
  isAlphabetic := Char.isAlpha
  letter_of_alpha := fun c h => if_pos h
  number_of_digit := by
    intro c digit
    have apart : ¬ c.isAlpha = true := by
      simp only [Char.isAlpha, Char.isUpper, Char.isLower, Char.isDigit, Bool.or_eq_true,
        Bool.and_eq_true, decide_eq_true_eq, UInt32.le_iff_toNat_le] at digit ⊢
      simp at digit ⊢
      omega
    simp [apart, digit]

/-! ## Numerals -/

def takeSign : List Char → List Char
  | '+' :: rest | '-' :: rest => rest
  | text => text

/-- An exponent, or nothing. -/
def exponentText : List Char → Bool
  | [] => true
  | c :: rest =>
      (c == 'e' || c == 'E') && !(takeSign rest).isEmpty && (takeSign rest).all Char.isDigit

/-- `str::parse::<f64>().is_ok()` -/
def parsesF64 (text : List Char) : Bool :=
  let unsigned := takeSign text
  let word := unsigned.map Char.toLower
  let integer := unsigned.takeWhile Char.isDigit
  word == ['i', 'n', 'f'] || word == ['i', 'n', 'f', 'i', 'n', 'i', 't', 'y'] ||
    word == ['n', 'a', 'n'] ||
    match unsigned.dropWhile Char.isDigit with
    | '.' :: rest =>
        (!integer.isEmpty || !(rest.takeWhile Char.isDigit).isEmpty) &&
          exponentText (rest.dropWhile Char.isDigit)
    | rest => !integer.isEmpty && exponentText rest

/-! ## Rules -/

variable (tables : CategoryTables)

/-- Two letters in one word, with `letters` of it read already. -/
def multiLetterFrom : Nat → List Char → Bool
  | _, [] => false
  | letters, c :: rest =>
      if tables.category c = .letter then
        if 2 ≤ letters + 1 then true else multiLetterFrom (letters + 1) rest
      else if tables.category c = .mark ∧ 0 < letters then
        multiLetterFrom letters rest
      else
        multiLetterFrom 0 rest

def multiLetterWord (text : List Char) : Bool :=
  multiLetterFrom tables 0 text

def digits (text : List Char) (minimum maximum : Nat) : Bool :=
  minimum ≤ byteLength text && byteLength text ≤ maximum && text.all Char.isDigit

def dateStamp (text : List Char) : Bool :=
  if 32 < text.length then
    false
  else
    match splitWhitespace text with
    | [date, marker] =>
        (match splitWhere (· == '/') date with
        | [month, day, year] =>
            digits month 1 2 && digits day 1 2 && (digits year 2 2 || digits year 4 4)
        | _ => false) &&
        (match splitWhere (· == '-') marker with
        | [letters, number] =>
            1 ≤ byteLength letters && byteLength letters ≤ 2 && letters.all Char.isAlpha &&
              digits number 1 3
        | _ => false)
    | _ => false

/-- `token.trim_matches(|c| matches!(c, '|' | ';' | ','))` -/
def trimCell (token : List Char) : List Char :=
  (token.dropWhile (['|', ';', ','].contains ·)).rdropWhile (['|', ';', ','].contains ·)

/-- A number beside a currency, per cent or degree sign somewhere on the page. -/
def markedNumber (text : List Char) : Bool :=
  text.any tables.isNumeric &&
    text.any fun c => tables.category c = .currencySymbol ∨ c ∈ ['%', '‰', '‱', '°']

def operators : List (List Char) :=
  [['<', '='], ['>', '='], ['!', '='], ['<'], ['>'], ['='], ['≤'], ['≥'], ['≠']]

/-- The value that a token, or the one behind it, is compared with. -/
def comparedValue (token : List Char) (next : Option (List Char)) (operator : List Char) :
    Option (List Char) :=
  if token = operator then next.map trimCell else stripStart operator token

def isComparison (token : List Char) (next : Option (List Char)) : Bool :=
  operators.any fun operator =>
    (comparedValue (trimCell token) next operator).any fun value =>
      !value.isEmpty && parsesF64 value

def singleLetterUnits : List (List Char) :=
  [['l'], ['L'], ['m'], ['g'], ['s'], ['A'], ['V'], ['W'], ['J'], ['K'], ['C'], ['F']]

def isMeasure (token : List Char) (next : Option (List Char)) : Bool :=
  let unit := token.dropWhile (!tables.isAlphabetic ·)
  (!unit.isEmpty && singleLetterUnits.contains unit &&
      parsesF64 (token.takeWhile (!tables.isAlphabetic ·))) ||
    (parsesF64 token && next.any (singleLetterUnits.contains ·))

/-- A rule for a token and the one behind it, at some token of the page. -/
def anyToken (rule : List Char → Option (List Char) → Bool) : List (List Char) → Bool
  | [] => false
  | token :: rest => rule token rest.head? || anyToken rule rest

/-- Two numeric characters in a row, with `consecutive` of them read already. -/
def consecutiveDigits : Nat → List Char → Bool
  | _, [] => false
  | consecutive, c :: rest =>
      if tables.isNumeric c then
        if 2 ≤ consecutive + 1 then true else consecutiveDigits (consecutive + 1) rest
      else
        consecutiveDigits 0 rest

def numericLine (line : List Char) : Bool :=
  (!line.isEmpty && line.all tables.isNumeric) || consecutiveDigits tables 0 line ||
    2 ≤ ((splitWhitespace line).filter fun token => parsesF64 (trimCell token)).length

def standalonePunctuation : List Char :=
  ['+', '-', '.', ',', '/', ':', '(', ')']

/-- A page of numbers and their punctuation alone. -/
def standaloneNumbers (text : List Char) : Bool :=
  text.any tables.isNumeric &&
    text.all fun c => tables.isNumeric c || isWhitespace c || standalonePunctuation.contains c

/-- The values that are recognised wherever they stand on a page. -/
def recognisedValue (text : List Char) : Bool :=
  markedNumber tables text || anyToken isComparison (splitWhitespace text) ||
    anyToken (isMeasure tables) (splitWhitespace text) ||
    (lines text).any fun line => numericLine tables (trim line)

def numericContent (text : List Char) : Bool :=
  recognisedValue tables text || standaloneNumbers tables text

def isNoise (c : Char) : Bool :=
  tables.category c ∈ [.punctuation, .currencySymbol, .otherSymbol, .control]

def classify (source : List Char) : Option Omission :=
  let text := trim source
  if text.isEmpty then
    none
  else if dateStamp text then
    some .datePageStamp
  else if multiLetterWord tables text || numericContent tables text then
    none
  else
    let visible := text.filter (!isWhitespace ·)
    -- unknown or ambiguous characters cannot justify an omission
    if visible.any fun c => tables.category c ∈ [.unassigned, .privateUse, .format] then
      none
    else if 0 < visible.length ∧ visible.length * 4 ≤ (visible.filter (isNoise tables)).length * 5
    then
      some .scanNoise
    else
      none

/-! ## Rules under added text -/

section Rules

variable {tables : CategoryTables} {text front back : List Char}

theorem multiLetterFrom_mono {m n : Nat} (le : m ≤ n)
    (h : multiLetterFrom tables m text = true) : multiLetterFrom tables n text = true := by
  induction text generalizing m n with
  | nil => cases h
  | cons c rest ih =>
      simp only [multiLetterFrom] at h ⊢
      by_cases letter : tables.category c = .letter
      · simp only [letter, if_true] at h ⊢
        by_cases second : 2 ≤ m + 1
        · rw [if_pos (by omega)]
        · rw [if_neg second] at h
          split
          · rfl
          · exact ih (by omega) h
      · simp only [letter, if_false] at h ⊢
        by_cases mark : tables.category c = .mark ∧ 0 < m
        · rw [if_pos mark] at h
          rw [if_pos ⟨mark.1, by omega⟩]
          exact ih le h
        · rw [if_neg mark] at h
          split
          · exact ih (Nat.zero_le _) h
          · exact h

theorem multiLetterFrom_append {n : Nat} (h : multiLetterFrom tables n text = true)
    (back : List Char) : multiLetterFrom tables n (text ++ back) = true := by
  induction text generalizing n with
  | nil => cases h
  | cons c rest ih =>
      simp only [List.cons_append, multiLetterFrom] at h ⊢
      split
      · rename_i letter
        simp only [letter, if_true] at h
        split
        · rfl
        · rename_i single
          rw [if_neg single] at h
          exact ih h
      · rename_i other
        simp only [other, if_false] at h
        split
        · rename_i mark
          rw [if_pos mark] at h
          exact ih h
        · rename_i mark
          rw [if_neg mark] at h
          exact ih h

theorem multiLetterWord_within (h : multiLetterWord tables text = true) (front back : List Char) :
    multiLetterWord tables (front ++ (text ++ back)) = true := by
  have behind : ∀ n, multiLetterFrom tables n (front ++ (text ++ back)) = true := by
    induction front with
    | nil =>
        intro n
        exact multiLetterFrom_mono (Nat.zero_le n) (multiLetterFrom_append h back)
    | cons c front ih =>
        intro n
        simp only [List.cons_append, multiLetterFrom]
        split
        · split
          · rfl
          · exact ih _
        · split <;> exact ih _
  exact behind 0

theorem markedNumber_within (h : markedNumber tables text = true) (front back : List Char) :
    markedNumber tables (front ++ (text ++ back)) = true := by
  simp only [markedNumber, Bool.and_eq_true, List.any_append, Bool.or_eq_true] at h ⊢
  exact ⟨.inr (.inl h.1), .inr (.inl h.2)⟩

/-- A rule that needs its next token only where there is one. -/
def Extends (rule : List Char → Option (List Char) → Bool) : Prop :=
  ∀ token next, rule token none = true → rule token next = true

theorem anyToken_within {rule : List Char → Option (List Char) → Bool} (extends_ : Extends rule)
    {tokens : List (List Char)} (h : anyToken rule tokens = true)
    (front back : List (List Char)) : anyToken rule (front ++ (tokens ++ back)) = true := by
  have ahead : anyToken rule (tokens ++ back) = true := by
    induction tokens with
    | nil => cases h
    | cons token rest ih =>
        simp only [List.cons_append, anyToken, Bool.or_eq_true] at h ⊢
        obtain own | later := h
        · left
          cases rest with
          | nil => exact extends_ token _ own
          | cons next rest => exact own
        · exact .inr (ih later)
  induction front with
  | nil => exact ahead
  | cons token front ih => simp [anyToken, ih]

theorem isComparison_extends : Extends isComparison := by
  intro token next h
  simp only [isComparison, List.any_eq_true] at h ⊢
  obtain ⟨operator, mem, value⟩ := h
  refine ⟨operator, mem, ?_⟩
  simp only [comparedValue] at value ⊢
  split at value
  · cases value
  · rename_i other
    rwa [if_neg other]

theorem isMeasure_extends : Extends (isMeasure tables) := by
  intro token next h
  simp only [isMeasure, Option.any_none, Bool.and_false, Bool.or_false] at h
  simp only [isMeasure, h, Bool.true_or]

end Rules

/-! ## Lines under added text -/

section Lines

variable {text front back : List Char}

/-- The trimmed lines of a text that show something. -/
def shownLines (text : List Char) : List (List Char) :=
  ((splitWhere (· == '\n') text).map trim).filter (!·.isEmpty)

theorem shownLines_append (front back : List Char) :
    shownLines (front ++ '\n' :: back) = shownLines front ++ shownLines back := by
  simp [shownLines, @splitWhere_append Char (· == '\n') '\n' (by simp) front back]

theorem trim_cons (space : isWhitespace c = true) (text : List Char) :
    trim (c :: text) = trim text := by
  rw [trim, List.dropWhile_cons_of_pos space]
  rfl

theorem rdropWhile_around {holds : α → Bool} {back : List α} (all : ∀ a ∈ back, holds a = true)
    (text : List α) : (text ++ back).rdropWhile holds = text.rdropWhile holds := by
  induction back using List.reverseRecOn with
  | nil => rw [List.append_nil]
  | append_singleton back a ih =>
      simp only [List.forall_mem_append, List.forall_mem_singleton] at all
      rw [← List.append_assoc, List.rdropWhile_concat_pos _ _ _ all.2, ih all.1]

theorem trim_around (space : ∀ c ∈ front, isWhitespace c = true)
    (space' : ∀ c ∈ back, isWhitespace c = true) (text : List Char) :
    trim (front ++ (text ++ back)) = trim text := by
  induction front with
  | cons c front ih =>
      obtain ⟨own, others⟩ := List.forall_mem_cons.mp space
      rw [List.cons_append, trim_cons own, ih others]
  | nil =>
      rw [List.nil_append]
      by_cases empty : ∀ c ∈ text, isWhitespace c = true
      · have none (text : List Char) (empty : ∀ c ∈ text, isWhitespace c = true) :
            trim text = [] := by
          rw [trim, List.dropWhile_eq_nil_iff.mpr empty]
          rfl
        rw [none text empty, none _ (by
          simp only [List.forall_mem_append]
          exact ⟨empty, space'⟩)]
      · simp only [not_forall] at empty
        obtain ⟨c, mem, visible⟩ := empty
        have stops : text.dropWhile isWhitespace ≠ [] := by
          rw [Ne, List.dropWhile_eq_nil_iff]
          exact fun all => visible (all c mem)
        rw [trim, List.dropWhile_append, if_neg (by simpa using stops), trim,
          rdropWhile_around space']

theorem shownLines_cons (space : isWhitespace c = true) (text : List Char) :
    shownLines (c :: text) = shownLines text := by
  by_cases feed : c = '\n'
  · subst feed
    exact shownLines_append [] text
  · cases found : splitWhere (· == '\n') text with
    | nil => exact absurd found (splitWhere_ne_nil _ _)
    | cons line later =>
        simp [shownLines, splitWhere, feed, found, trim_cons space]

theorem splitWhere_concat {separates : α → Bool} {a : α} (plain : separates a = false)
    (text : List α) : ∃ front last, splitWhere separates text = front ++ [last] ∧
      splitWhere separates (text ++ [a]) = front ++ [last ++ [a]] := by
  induction text with
  | nil => exact ⟨[], [], rfl, by simp [splitWhere, plain]⟩
  | cons b rest ih =>
      obtain ⟨front, last, found, concat⟩ := ih
      by_cases separated : separates b = true
      · exact ⟨[] :: front, last, by simp [splitWhere, separated, found],
          by simp [splitWhere, separated, concat]⟩
      · cases front with
        | nil => exact ⟨[], b :: last, by simp [splitWhere, separated, found],
            by simp [splitWhere, separated, concat]⟩
        | cons first front => exact ⟨(b :: first) :: front, last,
            by simp [splitWhere, separated, found], by simp [splitWhere, separated, concat]⟩

theorem shownLines_concat (space : isWhitespace c = true) (text : List Char) :
    shownLines (text ++ [c]) = shownLines text := by
  by_cases feed : c = '\n'
  · subst feed
    have nothing : shownLines [] = [] := rfl
    rw [shownLines_append, nothing, List.append_nil]
  · obtain ⟨front, last, found, concat⟩ :=
      @splitWhere_concat Char (· == '\n') c (by simpa using feed) text
    have same : trim (last ++ [c]) = trim last := by
      have around : trim ([] ++ (last ++ [c])) = trim last :=
        trim_around (by simp) (by simpa using space) last
      exact around
    simp [shownLines, found, concat, same]

theorem shownLines_trim (text : List Char) : shownLines (trim text) = shownLines text := by
  obtain ⟨front, back, split, -, space, space'⟩ := trim_split text
  conv_rhs => rw [split]
  have ahead : shownLines (front ++ (trim text ++ back)) = shownLines (trim text ++ back) := by
    clear split
    induction front with
    | nil => rfl
    | cons c front ih =>
        obtain ⟨own, others⟩ := List.forall_mem_cons.mp space
        rw [List.cons_append, shownLines_cons own, ih others]
  rw [ahead]
  clear split ahead
  induction back using List.reverseRecOn with
  | nil => rw [List.append_nil]
  | append_singleton back c ih =>
      simp only [List.forall_mem_append, List.forall_mem_singleton] at space'
      rw [← List.append_assoc, shownLines_concat space'.2, ih space'.1]

/-- A line is what stands between two line feeds, perhaps without a carriage return. -/
theorem lines_split (text : List Char) :
    ∃ pieces, (splitWhere (· == '\n') text = pieces ∨
        splitWhere (· == '\n') text = pieces ++ [[]]) ∧
      List.Forall₂ (fun line piece => piece = line ∨ piece = line ++ ['\r']) (lines text)
        pieces := by
  fun_induction lines text with
  | case1 => exact ⟨[], .inr rfl, .nil⟩
  | case2 rest ih =>
      obtain ⟨pieces, split, same⟩ := ih
      exact ⟨[] :: pieces, by simpa [splitWhere] using split, .cons (.inl rfl) same⟩
  | case3 rest ih =>
      obtain ⟨pieces, split, same⟩ := ih
      refine ⟨['\r'] :: pieces, ?_, .cons (.inr rfl) same⟩
      simpa [splitWhere] using split
  | case4 c rest feed ret none ih =>
      obtain ⟨pieces, split, same⟩ := ih
      rw [none] at same
      cases same
      have empty : splitWhere (· == '\n') rest = [[]] := by
        obtain nothing | one := split
        · exact absurd nothing (splitWhere_ne_nil _ _)
        · exact one
      have plain : ¬ c = '\n' := fun same => feed same
      exact ⟨[[c]], .inl (by simp [splitWhere, plain, empty]), .cons (.inl rfl) .nil⟩
  | case5 c rest feed ret line later found ih =>
      obtain ⟨pieces, split, same⟩ := ih
      rw [found] at same
      cases same with
      | @cons _ piece _ others first same =>
          have plain : ¬ c = '\n' := fun same => feed same
          refine ⟨(c :: piece) :: others, ?_, .cons ?_ same⟩
          · obtain split | split := split
            · exact .inl (by simp [splitWhere, plain, split])
            · exact .inr (by simp [splitWhere, plain, split])
          · obtain rfl | rfl := first
            · exact .inl rfl
            · exact .inr rfl

theorem shownLines_lines (text : List Char) :
    ((lines text).map trim).filter (!·.isEmpty) = shownLines text := by
  obtain ⟨pieces, split, same⟩ := lines_split text
  have trimmed {found pieces : List (List Char)}
      (same : List.Forall₂ (fun line piece => piece = line ∨ piece = line ++ ['\r']) found
        pieces) : found.map trim = pieces.map trim := by
    induction same with
    | nil => rfl
    | cons first _ ih =>
        rw [List.map_cons, List.map_cons, ih]
        obtain rfl | rfl := first
        · rfl
        · congr 1
          have feed : ∀ c ∈ ['\r'], isWhitespace c = true :=
            List.forall_mem_singleton.mpr (by decide)
          exact (trim_around (List.forall_mem_nil _) feed _).symm
  rw [trimmed same, shownLines]
  obtain rfl | split := split
  · rfl
  · simp [split, trim]

theorem any_lines {rule : List Char → Bool} (nothing : rule [] = false) (text : List Char) :
    ((lines text).any fun line => rule (trim line)) = (shownLines text).any rule := by
  rw [← shownLines_lines, List.any_filter, List.any_map]
  congr 1
  funext line
  cases h : trim line with
  | nil => simp [h, nothing]
  | cons c rest => simp [h]

end Lines

/-! ## Pages under added noise -/

section Noise

variable {tables : CategoryTables} {text before behind : List Char}

/-- A mark, a symbol or whitespace. -/
def NoiseChar (tables : CategoryTables) (c : Char) : Prop :=
  isWhitespace c = true ∨ tables.category c ∈ [.punctuation, .currencySymbol, .otherSymbol]

theorem NoiseChar.not_digit (noise : NoiseChar tables c) : ¬ c.isDigit = true := by
  intro digit
  obtain space | other := noise
  · simp only [isWhitespace, Char.isDigit, Bool.or_eq_true, Bool.and_eq_true, decide_eq_true_eq,
      beq_iff_eq, UInt32.le_iff_toNat_le, Char.toNat] at space digit
    simp at space digit
    omega
  · simp [tables.number_of_digit c digit] at other

theorem splitWhitespace_subset {token : List Char} (mem : token ∈ splitWhitespace text) :
    ∀ c ∈ token, c ∈ text :=
  splitWhere_subset (List.mem_of_mem_filter mem)

theorem whitespace_of_no_tokens (none : splitWhitespace text = []) :
    ∀ c ∈ text, isWhitespace c = true := by
  induction text with
  | nil => simp
  | cons c rest ih =>
      by_cases space : isWhitespace c = true
      · rw [splitWhitespace_cons space] at none
        simpa [space] using ih none
      · cases found : splitWhere isWhitespace rest with
        | nil => exact absurd found (splitWhere_ne_nil _ _)
        | cons first later => simp [splitWhitespace, splitWhere, space, found] at none

theorem digit_of_digits {minimum maximum : Nat} (h : digits text minimum maximum = true)
    (positive : 0 < minimum) : ∃ c ∈ text, c.isDigit = true := by
  simp only [digits, Bool.and_eq_true, decide_eq_true_eq, List.all_eq_true] at h
  cases text with
  | nil =>
      have := h.1.1
      simp [byteLength] at this
      omega
  | cons c rest => exact ⟨c, by simp, h.2 c (by simp)⟩

theorem dateStamp_parts (stamp : dateStamp text = true) :
    ∃ date marker, splitWhitespace text = [date, marker] ∧
      (∃ c ∈ date, c.isDigit = true) ∧ ∃ c ∈ marker, c.isDigit = true := by
  simp only [dateStamp] at stamp
  split at stamp
  · cases stamp
  · split at stamp
    · rename_i date marker parts
      refine ⟨date, marker, parts, ?_⟩
      simp only [Bool.and_eq_true] at stamp
      obtain ⟨first, second⟩ := stamp
      split at first
      · rename_i month day year fields
        split at second
        · rename_i letters number pieces
          simp only [Bool.and_eq_true] at first second
          obtain ⟨c, mem, digit⟩ := digit_of_digits first.1.1 (by omega)
          obtain ⟨d, mem', digit'⟩ := digit_of_digits second.2 (by omega)
          exact ⟨⟨c, splitWhere_subset (by rw [fields]; simp) c mem, digit⟩,
            ⟨d, splitWhere_subset (by rw [pieces]; simp) d mem', digit'⟩⟩
        · cases second
      · cases first
    · cases stamp

/-- The lines of noise around a page. -/
def surrounded (before text behind : List Char) : List Char :=
  before ++ '\n' :: (text ++ '\n' :: behind)

theorem surrounded_tokens : splitWhitespace (surrounded before text behind) =
    splitWhitespace before ++ (splitWhitespace text ++ splitWhitespace behind) := by
  rw [surrounded, splitWhitespace_append (by decide), splitWhitespace_append (by decide)]

theorem surrounded_lines : shownLines (surrounded before text behind) =
    shownLines before ++ (shownLines text ++ shownLines behind) := by
  rw [surrounded, shownLines_append, shownLines_append]

theorem trim_within (visible : blank text = false) (front back : List Char) :
    ∃ front' back', trim (front ++ (text ++ back)) = front' ++ (trim text ++ back') := by
  obtain ⟨lead, trail, split, -, space, space'⟩ := trim_split text
  have kept := trimmed_trim visible
  obtain ⟨c, first, visible⟩ := kept.first
  obtain ⟨d, last, visible'⟩ := kept.last
  refine ⟨(front ++ lead).dropWhile isWhitespace, (trail ++ back).rdropWhile isWhitespace, ?_⟩
  have whole : front ++ (text ++ back) =
      (front ++ lead).takeWhile isWhitespace ++ (((front ++ lead).dropWhile isWhitespace ++
        (trim text ++ (trail ++ back).rdropWhile isWhitespace)) ++
          (trail ++ back).rtakeWhile isWhitespace) := by
    calc front ++ (text ++ back) = (front ++ lead) ++ (trim text ++ (trail ++ back)) := by
          conv_lhs => rw [split]
          simp
      _ = _ := by
          conv_lhs => rw [← @List.takeWhile_append_dropWhile _ isWhitespace (front ++ lead),
            ← @List.rdropWhile_append_rtakeWhile _ isWhitespace (trail ++ back)]
          simp only [List.append_assoc]
  have trimmed : Trimmed ((front ++ lead).dropWhile isWhitespace ++
      (trim text ++ (trail ++ back).rdropWhile isWhitespace)) := by
    constructor
    · cases start : (front ++ lead).dropWhile isWhitespace with
      | nil => exact ⟨c, by rw [List.nil_append, List.head?_append_of_ne_nil _ kept.ne_nil, first],
          visible⟩
      | cons e rest =>
          have := List.head?_dropWhile_not isWhitespace (front ++ lead)
          rw [start] at this
          exact ⟨e, rfl, by simpa using this⟩
    · by_cases ends : (trail ++ back).rdropWhile isWhitespace = []
      · refine ⟨d, ?_, visible'⟩
        rw [ends, List.append_nil, List.getLast?_append_of_ne_nil _ kept.ne_nil, last]
      · refine ⟨_, ?_, Bool.eq_false_iff.mpr (List.rdropWhile_last_not isWhitespace _ ends)⟩
        rw [← List.append_assoc, List.getLast?_append_of_ne_nil _ ends,
          List.getLast?_eq_some_getLast ends]
  rw [whole, trim_around (fun c mem => List.mem_takeWhile_imp mem)
    (fun c mem => List.mem_rtakeWhile_imp mem), trimmed.trim_eq]

theorem trim_surrounded (visible : blank text = false) (before behind : List Char) :
    ∃ front back, trim (surrounded before text behind) = front ++ (trim text ++ back) := by
  obtain ⟨front, back, kept⟩ := trim_within visible (before ++ ['\n']) ('\n' :: behind)
  rw [List.append_assoc] at kept
  exact ⟨front, back, kept⟩

/-- Noise around a page does not make a date stamp of it. -/
theorem dateStamp_surrounded (noise : ∀ c ∈ before ++ behind, NoiseChar tables c)
    (plain : dateStamp (trim text) = false) :
    dateStamp (trim (surrounded before text behind)) = false := by
  simp only [List.forall_mem_append] at noise
  rw [Bool.eq_false_iff]
  intro stamp
  obtain ⟨date, marker, parts, ⟨c, mem, digit⟩, ⟨d, mem', digit'⟩⟩ := dateStamp_parts stamp
  rw [splitWhitespace_trim, surrounded_tokens] at parts
  have first : splitWhitespace before = [] := by
    cases found : splitWhitespace before with
    | nil => rfl
    | cons token rest =>
        rw [found] at parts
        obtain rfl : token = date := by simpa using congrArg List.head? parts
        have inside := splitWhitespace_subset (by rw [found]; simp) c mem
        exact absurd digit (noise.1 c inside).not_digit
  have last : splitWhitespace behind = [] := by
    cases found : splitWhitespace behind using List.reverseRecOn with
    | nil => rfl
    | append_singleton rest token =>
        rw [found] at parts
        obtain rfl : token = marker := by
          simpa [← List.append_assoc] using congrArg List.getLast? parts
        have inside := splitWhitespace_subset (by rw [found]; simp) d mem'
        exact absurd digit' (noise.2 d inside).not_digit
  have same : trim (surrounded before text behind) = trim text := by
    have around := @trim_around (before ++ ['\n']) ('\n' :: behind)
      (by
        simp only [List.forall_mem_append, List.forall_mem_singleton]
        exact ⟨whitespace_of_no_tokens first, by decide⟩)
      (List.forall_mem_cons.mpr ⟨by decide, whitespace_of_no_tokens last⟩) text
    rwa [List.append_assoc] at around
  rw [same, plain] at stamp
  cases stamp

theorem recognisedValue_surrounded (value : recognisedValue tables (trim text) = true)
    (visible : blank text = false) :
    recognisedValue tables (trim (surrounded before text behind)) = true := by
  simp only [recognisedValue, Bool.or_eq_true, splitWhitespace_trim, surrounded_tokens,
    any_lines (show numericLine tables [] = false from rfl), shownLines_trim,
    surrounded_lines] at value ⊢
  obtain ((marked | compared) | measured) | line := value
  · obtain ⟨front, back, kept⟩ := trim_surrounded visible before behind
    rw [kept]
    exact .inl (.inl (.inl (markedNumber_within marked front back)))
  · exact .inl (.inl (.inr (anyToken_within isComparison_extends compared _ _)))
  · exact .inl (.inr (anyToken_within isMeasure_extends measured _ _))
  · refine .inr ?_
    simp [line]

theorem standaloneNumbers_surrounded (numbers : standaloneNumbers tables (trim text) = true)
    (visible : blank text = false)
    (noise : ∀ c ∈ before ++ behind, isWhitespace c = true ∨ c ∈ standalonePunctuation) :
    standaloneNumbers tables (trim (surrounded before text behind)) = true := by
  simp only [standaloneNumbers, Bool.and_eq_true, List.any_eq_true, List.all_eq_true,
    Bool.or_eq_true, List.contains_iff_mem] at numbers ⊢
  obtain ⟨⟨c, mem, numeric⟩, all⟩ := numbers
  constructor
  · obtain ⟨front, back, kept⟩ := trim_surrounded visible before behind
    rw [kept]
    exact ⟨c, by simp [mem], numeric⟩
  · intro d inside
    obtain ⟨lead, trail, split, -⟩ := trim_split (surrounded before text behind)
    have whole : d ∈ surrounded before text behind := by
      rw [split]
      simp [inside]
    obtain ⟨lead', trail', split', -, space, space'⟩ := trim_split text
    rw [surrounded, split'] at whole
    simp only [List.mem_append, List.mem_cons] at whole noise
    obtain outer | rfl | ((led | kept | trailed) | rfl | outer) := whole
    · exact (noise d (.inl outer)).elim (fun space => .inl (.inr space)) .inr
    · exact .inl (.inr (by decide))
    · exact .inl (.inr (space d led))
    · exact all d kept
    · exact .inl (.inr (space' d trailed))
    · exact .inl (.inr (by decide))
    · exact (noise d (.inr outer)).elim (fun space => .inl (.inr space)) .inr

/-- A page that is kept for a word or a value is kept with lines of noise around it. A page
of numbers alone is kept when the noise is punctuation of numbers too. -/
theorem classify_surrounded (kept : classify tables text = none)
    (noise : ∀ c ∈ before ++ behind, NoiseChar tables c)
    (content : multiLetterWord tables (trim text) = true ∨
      recognisedValue tables (trim text) = true ∨ standaloneNumbers tables (trim text) = true ∧
        ∀ c ∈ before ++ behind, isWhitespace c = true ∨ c ∈ standalonePunctuation) :
    classify tables (surrounded before text behind) = none := by
  have visible : blank text = false := by
    rw [blank, List.isEmpty_eq_false_iff]
    intro empty
    rw [empty] at content
    obtain word | value | numbers := content
    · cases word
    · cases value
    · cases numbers.1
  have filled : (trim text).isEmpty = false := visible
  have plain : dateStamp (trim text) = false := by
    rw [Bool.eq_false_iff]
    intro stamp
    simp [classify, filled, stamp] at kept
  have found : (multiLetterWord tables (trim (surrounded before text behind)) ||
      numericContent tables (trim (surrounded before text behind))) = true := by
    simp only [Bool.or_eq_true, numericContent]
    obtain word | value | numbers := content
    · obtain ⟨front, back, same⟩ := trim_surrounded visible before behind
      rw [same]
      exact .inl (multiLetterWord_within word front back)
    · exact .inr (.inl (recognisedValue_surrounded value visible))
    · exact .inr (.inr (standaloneNumbers_surrounded numbers.1 visible numbers.2))
  simp only [classify, dateStamp_surrounded noise plain, found, if_true]
  split <;> rfl

theorem measure_among_dots :
    classify .ascii (surrounded ['.', '.', '\n', '.'] ['1', '0', ' ', 'k', 'g'] ['*', '*']) =
      none :=
  classify_surrounded rfl
    (by simp [NoiseChar, isWhitespace, CategoryTables.ascii]) (.inl rfl)

/-- A lone digit in brackets is no longer kept between lines of stars. -/
theorem bracketed_digit_omitted :
    classify .ascii ['(', '5', ')'] = none ∧
      numericContent .ascii (trim ['(', '5', ')']) = true ∧
      (∀ c ∈ ['*', '*', '*', '*', '*'], NoiseChar .ascii c) ∧
      classify .ascii (surrounded ['*', '*', '*', '*', '*'] ['(', '5', ')'] []) =
        some .scanNoise :=
  ⟨rfl, rfl, by simp [NoiseChar, CategoryTables.ascii], rfl⟩

end Noise

end DocumentSummarizer.Pipeline
