import DocumentSummarizer.Coherent.ContractCardinals
import DocumentSummarizer.Pipeline.SourceText

/-! # Amounts in contracts

The amounts of money, the percentages, the durations and the dates that a clause names,
each in the form in which the clauses of a summary are compared.
-/

namespace DocumentSummarizer.Coherent

open Library Pipeline

/-! ## Numbers -/

def isSeparator (c : Char) : Bool :=
  c == ',' || c == '.'

def thousandGroup (group : List Char) : Bool :=
  group.length == 3 && group.all Char.isDigit

/-- A plain integer, or one in groups of thousands. -/
def integerGroups (groups : List (List Char)) : Bool :=
  match groups with
  | [] => false
  | first :: rest =>
    !first.isEmpty && first.all Char.isDigit &&
      (rest.isEmpty || first.length ≤ 3 && rest.all thousandGroup)

/-- The last separator is a decimal point when one or two digits are behind it. -/
def splitDecimal (value : List Char) : List Char × List Char :=
  let fraction := value.rtakeWhile (!isSeparator ·)
  if value.any isSeparator ∧ 1 ≤ fraction.length ∧ fraction.length ≤ 2 then
    (value.take (value.length - fraction.length - 1), fraction)
  else
    (value, [])

/-- An integer part and a fraction without needless zeros. -/
def canonicalParts (parts : List Char × List Char) : Option (List Char) :=
  let groups := splitWhere isSeparator parts.1
  if integerGroups groups = false ∨ parts.2.all Char.isDigit = false then none
  else
    let digits := groups.flatten.dropWhile (· == '0')
    let integer := if digits = [] then ['0'] else digits
    let fraction := parts.2.rdropWhile (· == '0')
    some (if fraction = [] then integer else integer ++ '.' :: fraction)

def canonicalContractNumber (raw : List Char) : Option (List Char) :=
  let value := (trim raw).rdropWhile isSeparator
  if value = [] ∨ value.any Char.isDigit = false ∨
      value.any (fun c => !c.isDigit && !isSeparator c) = true then none
  else canonicalParts (splitDecimal value)

example : canonicalContractNumber "€1.250,00".toList.tail =
    canonicalContractNumber "1,250".toList := by decide

def contractDurationCountPrefix (values : List (List Char)) : Reading (List Char × Nat) :=
  match values.head?.bind canonicalContractNumber with
  | some count => .ok (count, 1)
  | none => (contractCardinalPrefix (values.map String.ofList)).map fun read =>
      (Nat.toDigits 10 read.1, read.2)

/-! ## Money -/

inductive ContractMaterialTerm where
  | words (parts : List (List Char))
  | currency (code : String) (amount : List Char)
  | percentage (amount : List Char)
  deriving DecidableEq

def ContractMaterialTerm.label : ContractMaterialTerm → List Char
  | .words parts => joined [' '] parts
  | .currency code amount =>
    if code = "USD" then '$' :: amount
    else if code = "EUR" then '€' :: amount
    else if code = "GBP" then '£' :: amount
    else code.toList ++ ' ' :: amount
  | .percentage amount => amount ++ ['%']

def asciiWordChar (c : Char) : Bool :=
  c.isAlphanum || c == '_'

/-- The currency that a text starts with, and the length of its mark. -/
def currencyMarker (previous : Option Char) (text : List Char) : Option (String × Nat) :=
  match text with
  | '$' :: _ => some ("USD", 1)
  | '€' :: _ => some ("EUR", 1)
  | '£' :: _ => some ("GBP", 1)
  | a :: b :: c :: rest =>
    if [a, b, c].map Char.toUpper = ['U', 'S', 'D'] ∧ !previous.any asciiWordChar ∧
        rest.head?.all (fun next => isWhitespace next || next.isDigit) then
      some ("USD", 3)
    else none
  | _ => none

def amountChar (c : Char) : Bool :=
  c.isDigit || isSeparator c

/-- The marked amounts of a text as they are written. -/
def currencyRuns (previous : Option Char) (text : List Char) : List (String × List Char) :=
  match text with
  | [] => []
  | c :: rest =>
    match currencyMarker previous (c :: rest) with
    | none => currencyRuns (some c) rest
    | some (code, length) =>
      let behind := rest.drop (length - 1)
      let start := behind.dropWhile isWhitespace
      let run := start.takeWhile amountChar
      let consumed := (c :: rest.take (length - 1)) ++ behind.takeWhile isWhitespace ++ run
      (code, run) :: currencyRuns consumed.getLast? (start.dropWhile amountChar)
  termination_by text.length
  decreasing_by
    · simp
    · have dropped := (List.dropWhile_sublist (p := amountChar)
        (l := (rest.drop (length - 1)).dropWhile isWhitespace)).length_le
      have spaces := (List.dropWhile_sublist (p := isWhitespace)
        (l := rest.drop (length - 1))).length_le
      have marked := (List.drop_sublist (length - 1) rest).length_le
      simp only [List.length_cons]
      omega

def currencyTerm (run : String × List Char) : Option ContractMaterialTerm :=
  (canonicalContractNumber run.2).map fun amount => .currency run.1 amount

def currencyAmounts (text : List Char) : List ContractMaterialTerm :=
  (currencyRuns none text).filterMap currencyTerm

/-! ## Words -/

/-- What the readers of words take from the Unicode tables. -/
structure WordTables where
  isAlphanumeric : Char → Bool
  /-- `char::to_lowercase` -/
  toLowercase : Char → List Char

def WordTables.ascii : WordTables where
  isAlphanumeric := Char.isAlphanum
  toLowercase c := [c.toLower]

section Words

variable (tables : WordTables)

/-- `current` is the token under way. -/
def contractMaterialWordsFrom (current : List Char) : List Char → List (List Char)
  | [] => if current = [] then [] else [current]
  | c :: rest =>
    if tables.isAlphanumeric c ||
        isSeparator c && current.getLast?.any Char.isDigit && rest.head?.any Char.isDigit then
      contractMaterialWordsFrom (current ++ tables.toLowercase c) rest
    else if current = [] then contractMaterialWordsFrom [] rest
    else current :: contractMaterialWordsFrom [] rest

def contractMaterialWords (text : List Char) : List (List Char) :=
  contractMaterialWordsFrom tables [] text

example : contractMaterialWords .ascii "Pay 1,250.50 within 30 Days.".toList =
    ["pay".toList, "1,250.50".toList, "within".toList, "30".toList, "days".toList] := by decide

/-! ## Percentages -/

/-- Percent signs behind a digit are spelled out; `normalized` is what was written so far. -/
def spellPercent (normalized : List Char) : List Char → List Char
  | [] => normalized
  | c :: rest =>
    if c == '%' && (normalized.reverse.find? (!isWhitespace ·)).any Char.isDigit &&
        rest.head?.all (fun next => !tables.isAlphanumeric next && next != '_') then
      spellPercent (normalized ++ " percent ".toList) rest
    else spellPercent (normalized ++ [c]) rest

/-- The percentage that tokens start with. -/
def percentageAt (tokens : List (List Char)) : Reading (Option (List Char)) :=
  match contractDurationCountPrefix tokens with
  | .ok (amount, consumed) =>
    .ok (if tokens[consumed]? = some "percent".toList then some amount else none)
  | .error .overflow => .error .overflow
  | .error .refused => .ok none

def percentageAmounts (text : List Char) : Reading (List ContractMaterialTerm) := do
  let tokens := contractMaterialWords tables (spellPercent tables [] text)
  let amounts ← (tokens.tails.dropLast).mapM percentageAt
  return amounts.filterMap fun amount => amount.map .percentage

/-! ## Dates -/

/-- `str::parse` of an unsigned integer up to `limit`. -/
def parseBounded (limit : Nat) (text : List Char) : Option Nat :=
  let digits := withoutPlus text
  if digits = [] ∨ digits.all Char.isDigit = false ∨ limit < digitsValue digits then none
  else some (digitsValue digits)

def boundedNumber (value : List Char) (maximum : Nat) : Bool :=
  value ≠ [] && value.all Char.isDigit &&
    (parseBounded 65535 value).any fun number => 1 ≤ number && number ≤ maximum

def dateChar (c : Char) : Bool :=
  c.isDigit || c == '/' || c == '-'

def numericDate (raw : List Char) : Option (List (List Char)) :=
  let candidate := (raw.dropWhile (!dateChar ·)).rdropWhile (!dateChar ·)
  let slash := candidate.contains '/'
  let hyphen := candidate.contains '-'
  if slash = hyphen then none
  else
    match splitWhere (· == if slash then '/' else '-') candidate with
    | [first, second, third] =>
      if (first.length == 4 && boundedNumber first 9999 && boundedNumber second 12 &&
            boundedNumber third 31) ||
          (third.length == 4 && boundedNumber third 9999 &&
            (boundedNumber first 12 && boundedNumber second 31 ||
              boundedNumber first 31 && boundedNumber second 12)) then
        some [first, second, third]
      else none
    | _ => none

def numericContractDateWords (text : List Char) : List (List (List Char)) :=
  (splitWhitespace text).filterMap numericDate

def monthNames : List (String × Nat) :=
  [("january", 1), ("jan", 1), ("february", 2), ("feb", 2), ("march", 3), ("mar", 3),
    ("april", 4), ("apr", 4), ("may", 5), ("june", 6), ("jun", 6), ("july", 7), ("jul", 7),
    ("august", 8), ("aug", 8), ("september", 9), ("sep", 9), ("sept", 9), ("october", 10),
    ("oct", 10), ("november", 11), ("nov", 11), ("december", 12), ("dec", 12)]

def contractMonthValue (value : List Char) : Option Nat :=
  monthNames.lookup (String.ofList value)

def ordinalSuffix (day : Nat) : List Char :=
  if 11 ≤ day % 100 ∧ day % 100 ≤ 13 then "th".toList
  else if day % 10 = 1 then "st".toList
  else if day % 10 = 2 then "nd".toList
  else if day % 10 = 3 then "rd".toList
  else "th".toList

def contractDayValue (value : List Char) : Option Nat :=
  match parseBounded 255 value with
  | some day => if 1 ≤ day ∧ day ≤ 31 then some day else none
  | none => do
    let ending ← (["st", "nd", "rd", "th"].map String.toList).find? (·.isSuffixOf value)
    let day ← parseBounded 255 (value.take (value.length - 2))
    if 1 ≤ day ∧ day ≤ 31 ∧ ending = ordinalSuffix day then some day else none

def isYear (value : List Char) : Bool :=
  byteLength value == 4 &&
    (parseBounded 65535 value).any fun number => 1 ≤ number && number ≤ 9999

/-- The year, month and day that words are read as. -/
def canonicalDate : List (List Char) → Option (Option Nat × Option Nat × Option Nat)
  | [first, second, third] =>
    if first.length == 4 && first.all Char.isDigit then
      some (parseBounded 65535 first, parseBounded 255 second, parseBounded 255 third)
    else if byteLength third = 4 then
      let year := parseBounded 65535 third
      match contractMonthValue first, contractMonthValue second with
      | some month, _ => some (year, some month, contractDayValue second)
      | none, some month => some (year, some month, contractDayValue first)
      | none, none =>
        match parseBounded 255 first, parseBounded 255 second with
        | some a, some b =>
          if a ≤ 12 then some (year, some a, some b)
          else if b ≤ 12 then some (year, some b, some a)
          else none
        | _, _ => none
    else none
  | _ => none

/-! ## Durations -/

def unitNames : List (String × String) :=
  [("hour", "hours"), ("hours", "hours"), ("day", "days"), ("days", "days"), ("week", "weeks"),
    ("weeks", "weeks"), ("month", "months"), ("months", "months"), ("year", "years"),
    ("years", "years")]

def unitName (value : List Char) : Option (List Char) :=
  (unitNames.lookup (String.ofList value)).map String.toList

def isQualifier (value : List Char) : Bool :=
  value == "calendar".toList || value == "business".toList

/-- The words of a duration: the whole count in front of the unit has to be a count. -/
def canonicalDuration (value : List (List Char)) (unit : List Char) :
    Reading (List (List Char)) :=
  let front := value.dropLast
  let qualifier := if front.getLast?.any isQualifier then front.getLast?.toList else []
  let counted := front.take (front.length - qualifier.length)
  match contractDurationCountPrefix counted with
  | .ok (count, consumed) =>
    .ok (if consumed = counted.length then count :: (qualifier ++ [unit]) else value)
  | .error .overflow => .error .overflow
  | .error .refused => .ok value

def canonicalContractWords (value : List (List Char)) : Reading (List (List Char)) :=
  match canonicalDate value with
  | some (some year, some month, some day) =>
    .ok [Nat.toDigits 10 year, Nat.toDigits 10 month, Nat.toDigits 10 day]
  | _ =>
    match value.getLast?.bind unitName with
    | some unit => canonicalDuration value unit
    | none => .ok value

/-- The date that tokens start with. -/
def dateAt : List (List Char) → Option (List (List Char))
  | first :: second :: third :: _ =>
    if isYear third && ((contractMonthValue first).isSome && (contractDayValue second).isSome ||
        (contractDayValue first).isSome && (contractMonthValue second).isSome) then
      some [first, second, third]
    else none
  | _ => none

/-- The duration that tokens start with. -/
def durationAt (tokens : List (List Char)) : Reading (Option (List (List Char))) :=
  match contractDurationCountPrefix tokens with
  | .ok (_, consumed) =>
    let unitIndex := if tokens[consumed]?.any isQualifier then consumed + 1 else consumed
    .ok (if (tokens[unitIndex]?.bind unitName).isSome then some (tokens.take (unitIndex + 1))
      else none)
  | .error .overflow => .error .overflow
  | .error .refused => .ok none

/-- The dates and durations of tokens as they are written; behind a duration the reading goes
on. -/
def materialSlices (tokens : List (List Char)) : Reading (List (List (List Char))) :=
  match tokens with
  | [] => .ok []
  | token :: rest => do
    let duration ← durationAt (token :: rest)
    let later ← materialSlices (rest.drop ((duration.getD []).length - 1))
    return (dateAt (token :: rest)).toList ++ duration.toList ++ later
  termination_by tokens.length
  decreasing_by
    have dropped := (List.drop_sublist ((duration.getD []).length - 1) rest).length_le
    simp only [List.length_cons]
    omega

/-! ## Terms -/

/-- A set of terms, sorted by their labels. -/
def sortedTerms (terms : List ContractMaterialTerm) : List ContractMaterialTerm :=
  terms.dedup.insertionSort fun a b => a.label ≤ b.label

def contractMaterialTerms (text : List Char) : Reading (List ContractMaterialTerm) := do
  let percentages ← percentageAmounts tables text
  let dates ← (numericContractDateWords text).mapM canonicalContractWords
  let slices ← materialSlices (contractMaterialWords tables text)
  let spelled ← slices.mapM canonicalContractWords
  return sortedTerms (currencyAmounts text ++ percentages ++ (dates ++ spelled).map .words)

end Words

end DocumentSummarizer.Coherent
