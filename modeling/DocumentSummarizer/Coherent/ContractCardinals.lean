import DocumentSummarizer.Library.NumeralText

/-! # Reading cardinals

A count in a contract stands in words, in digits, or in a mixture of both. The reader
splits its tokens at the scale words, reads the group in front of every scale, and adds
the groups up; of the tokens of a count it takes the longest part that it can read.
-/

namespace DocumentSummarizer.Coherent

open Library

/-- How a reading ends without a number: the tokens are refused, or an operation leaves
the range of `u64`. -/
inductive Unread where
  | refused
  | overflow
  deriving DecidableEq, Repr

abbrev Reading := Except Unread

def orRefused : Option α → Reading α
  | some value => .ok value
  | none => .error .refused

/-! ## Machine arithmetic -/

/-- `a + b` on `u64` -/
def addU64 (a b : Nat) : Reading Nat :=
  if a + b < 2 ^ 64 then .ok (a + b) else .error .overflow

/-- `a * b` on `u64` -/
def mulU64 (a b : Nat) : Reading Nat :=
  if a * b < 2 ^ 64 then .ok (a * b) else .error .overflow

def checkedAdd (a b : Nat) : Option Nat :=
  if a + b < 2 ^ 64 then some (a + b) else none

def checkedMul (a b : Nat) : Option Nat :=
  if a * b < 2 ^ 64 then some (a * b) else none

/-! ## Tokens -/

/-- The number of a token of digits, of any size; a plus may stand in front. -/
def decimalText (text : String) : Option Nat :=
  let digits :=
    match text.toList with
    | '+' :: rest => rest
    | chars => chars
  if digits ≠ [] ∧ digits.all Char.isDigit then some (digitsValue digits) else none

/-- `str::parse::<u64>` -/
def parseU64 (text : String) : Option Nat :=
  (decimalText text).filter (· < 2 ^ 64)

def smallNumbers : List String :=
  ["zero", "one", "two", "three", "four", "five", "six", "seven", "eight", "nine", "ten",
    "eleven", "twelve", "thirteen", "fourteen", "fifteen", "sixteen", "seventeen", "eighteen",
    "nineteen"]

def tensNumbers : List (String × Nat) :=
  [("twenty", 20), ("thirty", 30), ("forty", 40), ("fifty", 50), ("sixty", 60),
    ("seventy", 70), ("eighty", 80), ("ninety", 90)]

def numberWord (value : String) : Option Nat :=
  (smallNumbers.idxOf? value).or (tensNumbers.lookup value)

def contractNumberValue (value : String) : Option Nat :=
  (parseU64 value).or (numberWord value)

def contractScale (value : String) : Option Nat :=
  [("thousand", 1000), ("million", 1000000), ("billion", 1000000000),
    ("trillion", 1000000000000)].lookup value

/-! ## Groups -/

def contractCardinalUnderHundred : List String → Reading Nat
  | [value] =>
      if value.toList.all Char.isDigit then
        orRefused (contractNumberValue value)
      else
        orRefused ((contractNumberValue value).filter (· ≤ 99))
  | [tens, ones] => do
      let tens ← orRefused (contractNumberValue tens)
      let ones ← orRefused (contractNumberValue ones)
      if 20 ≤ tens ∧ tens ≤ 90 ∧ tens % 10 = 0 ∧ 1 ≤ ones ∧ ones ≤ 9 then
        addU64 tens ones
      else
        .error .refused
  | _ => .error .refused

/-- The tokens behind a leading `and`. -/
def skipAnd : List String → List String
  | value :: rest => if value = "and" then rest else value :: rest
  | [] => []

def contractRemainder (tail : List String) : Reading Nat :=
  if tail = [] then .ok 0 else contractCardinalUnderHundred tail

def contractHundreds (value : String) (tail : List String) : Reading Nat := do
  let hundreds ← orRefused (contractNumberValue value)
  if 1 ≤ hundreds ∧ hundreds ≤ 9 then
    let remainder ← contractRemainder (skipAnd tail)
    let product ← mulU64 hundreds 100
    addU64 product remainder
  else
    .error .refused

def contractCardinalUnderThousand : List String → Reading Nat
  | value :: second :: tail =>
      if second = "hundred" then contractHundreds value tail
      else contractCardinalUnderHundred (value :: second :: tail)
  | values => contractCardinalUnderHundred values

/-! ## Whole cardinals -/

def contractCardinalTail (total : Nat) (sawScale : Bool) (group : List String) : Reading Nat :=
  let tail := if sawScale then skipAnd group else group
  if tail = [] then
    if sawScale then .ok total else .error .refused
  else do
    let count ← contractCardinalUnderThousand tail
    orRefused (checkedAdd total count)

/-- `total` with the group in front of a scale word. -/
def contractCardinalScaled (total previousScale scale : Nat) (group : List String) :
    Reading Nat :=
  if previousScale ≤ scale then
    .error .refused
  else do
    let count ← contractCardinalUnderThousand group
    let product ← orRefused (checkedMul count scale)
    orRefused (checkedAdd total product)

/-- The loop over the tokens; `group` holds those from `group_start` on. -/
def contractCardinalLoop (total previousScale : Nat) (sawScale : Bool) (group : List String) :
    List String → Reading Nat
  | [] => contractCardinalTail total sawScale group
  | value :: rest =>
      match contractScale value with
      | none => contractCardinalLoop total previousScale sawScale (group ++ [value]) rest
      | some scale => do
          let total ← contractCardinalScaled total previousScale scale group
          contractCardinalLoop total scale true [] rest

def contractCardinalValue (values : List String) : Reading Nat :=
  contractCardinalLoop 0 (2 ^ 64 - 1) false [] values

def cardinalToken (value : String) : Bool :=
  (contractNumberValue value).isSome || value == "and" || value == "hundred" ||
    (contractScale value).isSome

/-- The longest of the first `consumed` tokens with a value. -/
def contractCardinalWithin (values : List String) : Nat → Reading (Nat × Nat)
  | 0 => .error .refused
  | consumed + 1 =>
      match contractCardinalValue (values.take (consumed + 1)) with
      | .ok number => .ok (number, consumed + 1)
      | .error .overflow => .error .overflow
      | .error .refused => contractCardinalWithin values consumed

def contractCardinalPrefix (values : List String) : Reading (Nat × Nat) :=
  contractCardinalWithin values (values.takeWhile cardinalToken).length

example : contractCardinalPrefix ["two", "thousand", "and", "thirty", "five", "days"] =
    .ok (2035, 5) := by rfl

/-! ## What the tokens denote -/

/-- The number of a token, of any size. -/
def numeralOf (token : String) : Option Nat :=
  (decimalText token).or (numberWord token)

/-- A numeral adds to its group, a hundred multiplies the group, and a scale word closes
it. -/
def denoteToken (read : Nat × Nat) (token : String) : Nat × Nat :=
  if token = "and" then
    read
  else if token = "hundred" then
    (read.1, read.2 * 100)
  else
    match contractScale token with
    | some scale => (read.1 + read.2 * scale, 0)
    | none => (read.1, read.2 + (numeralOf token).getD 0)

/-- The number that the tokens of a cardinal denote, without any bound. -/
def denotation (tokens : List String) : Nat :=
  let read := tokens.foldl denoteToken (0, 0)
  read.1 + read.2

theorem addU64_of_lt (fits : a + b < 2 ^ 64) : addU64 a b = .ok (a + b) :=
  if_pos fits

theorem addU64_of_le (exceeds : 2 ^ 64 ≤ a + b) : addU64 a b = .error .overflow :=
  if_neg (Nat.not_lt.mpr exceeds)

section Tokens

variable {value : String} {n : Nat}

theorem orRefused_eq_ok {read : Option α} {value : α} :
    orRefused read = .ok value ↔ read = some value := by
  cases read <;> simp [orRefused]

theorem orRefused_ne_overflow (read : Option α) : orRefused read ≠ .error .overflow := by
  cases read <;> simp [orRefused]

theorem numeral_ne_and (read : contractNumberValue value = some n) : value ≠ "and" := by
  rintro rfl
  rw [show contractNumberValue "and" = none by decide] at read
  cases read

theorem numeral_ne_hundred (read : contractNumberValue value = some n) : value ≠ "hundred" := by
  rintro rfl
  rw [show contractNumberValue "hundred" = none by decide] at read
  cases read

theorem numberWord_mem (h : numberWord value = some n) :
    value ∈ smallNumbers ++ tensNumbers.map (·.1) := by
  by_contra absent
  simp only [List.mem_append, not_or, List.mem_map, not_exists, not_and] at absent
  have small : smallNumbers.idxOf? value = none := List.idxOf?_eq_none_iff.mpr absent.1
  have tens : tensNumbers.lookup value = none :=
    List.lookup_eq_none_iff.mpr fun pair mem => by simpa using Ne.symm (absent.2 pair mem)
  simp [numberWord, small, tens] at h

theorem decimalText_numberWord (h : numberWord value = some n) : decimalText value = none :=
  (by decide : ∀ word ∈ smallNumbers ++ tensNumbers.map (·.1), decimalText word = none) value
    (numberWord_mem h)

theorem numeralOf_of_read (read : contractNumberValue value = some n) :
    numeralOf value = some n := by
  simp only [contractNumberValue, parseU64, numeralOf] at read ⊢
  cases text : decimalText value with
  | none => simpa [text] using read
  | some number =>
      cases word : numberWord value with
      | none => simp_all
      | some k => simp [decimalText_numberWord word] at text

theorem mem_of_contractScale {scale : Nat} (h : contractScale value = some scale) :
    (value, scale) ∈ [("thousand", 1000), ("million", 1000000), ("billion", 1000000000),
      ("trillion", 1000000000000)] := by
  obtain ⟨front, back, split, -⟩ := List.lookup_eq_some_iff.mp h
  simp [split]

theorem scale_token {scale : Nat} (h : contractScale value = some scale) :
    contractNumberValue value = none ∧ value ≠ "and" ∧ value ≠ "hundred" :=
  (by decide : ∀ pair ∈ [("thousand", 1000), ("million", 1000000), ("billion", 1000000000),
      ("trillion", 1000000000000)], contractNumberValue pair.1 = none ∧ pair.1 ≠ "and" ∧
        pair.1 ≠ "hundred") (value, scale) (mem_of_contractScale h)

theorem numeral_unscaled (read : contractNumberValue value = some n) :
    contractScale value = none := by
  cases h : contractScale value with
  | none => rfl
  | some scale => simp [(scale_token h).1] at read

end Tokens

/-! ## Groups that are read -/

inductive SmallGroup : List String → Nat → Prop
  | digits : token.toList.all Char.isDigit → contractNumberValue token = some n →
      SmallGroup [token] n
  | word : contractNumberValue token = some n → n ≤ 99 → SmallGroup [token] n
  | compound : contractNumberValue tens = some m → contractNumberValue ones = some n →
      20 ≤ m → m ≤ 90 → m % 10 = 0 → 1 ≤ n → n ≤ 9 → SmallGroup [tens, ones] (m + n)

inductive CardinalGroup : List String → Nat → Prop
  | small : SmallGroup group n → CardinalGroup group n
  | hundreds : contractNumberValue value = some m → 1 ≤ m → m ≤ 9 →
      joined = [] ∨ joined = ["and"] → CardinalGroup (value :: "hundred" :: joined) (m * 100)
  | tailed : contractNumberValue value = some m → 1 ≤ m → m ≤ 9 →
      joined = [] ∨ joined = ["and"] → SmallGroup tail n → m * 100 + n < 2 ^ 64 →
      CardinalGroup (value :: "hundred" :: (joined ++ tail)) (m * 100 + n)

/-- Some hundreds in front of a numeral too large for the sum. -/
def HugeHundreds (group : List String) : Prop :=
  ∃ value m joined token n, group = value :: "hundred" :: (joined ++ [token]) ∧
    (joined = [] ∨ joined = ["and"]) ∧ contractNumberValue value = some m ∧ 1 ≤ m ∧ m ≤ 9 ∧
    token.toList.all Char.isDigit ∧ contractNumberValue token = some n ∧ 2 ^ 64 ≤ m * 100 + n

section Groups

variable {group tail : List String} {n : Nat}

theorem underHundred_eq_ok : contractCardinalUnderHundred group = .ok n ↔ SmallGroup group n := by
  constructor
  · intro read
    match group with
    | [] => simp [contractCardinalUnderHundred] at read
    | [value] =>
        simp only [contractCardinalUnderHundred] at read
        split at read
        · rename_i digits
          exact .digits digits (orRefused_eq_ok.mp read)
        · have word := Option.filter_eq_some_iff.mp (orRefused_eq_ok.mp read)
          exact .word word.1 (by simpa using word.2)
    | [tens, ones] =>
        simp only [contractCardinalUnderHundred] at read
        cases first : contractNumberValue tens with
        | none => simp [first, orRefused, bind, Except.bind] at read
        | some m =>
            cases second : contractNumberValue ones with
            | none => simp [first, second, orRefused, bind, Except.bind] at read
            | some k =>
                simp only [first, second, orRefused, bind, Except.bind] at read
                split at read
                · rename_i h
                  have fits : m + k < 2 ^ 64 := by omega
                  simp only [addU64_of_lt fits, Except.ok.injEq] at read
                  subst read
                  exact .compound first second h.1 h.2.1 h.2.2.1 h.2.2.2.1 h.2.2.2.2
                · cases read
    | _ :: _ :: _ :: _ => simp [contractCardinalUnderHundred] at read
  · intro small
    cases small with
    | digits digits read => simp [contractCardinalUnderHundred, digits, read, orRefused]
    | word read small => simp [contractCardinalUnderHundred, read, Option.filter, small, orRefused]
    | @compound _ m _ k first second lower upper round positive ones =>
        have fits : m + k < 2 ^ 64 := by omega
        simp [contractCardinalUnderHundred, first, second, orRefused, bind, Except.bind, lower,
          upper, round, positive, ones, addU64_of_lt fits]

theorem underHundred_ne_overflow (group : List String) :
    contractCardinalUnderHundred group ≠ .error .overflow := by
  match group with
  | [] => simp [contractCardinalUnderHundred]
  | [value] =>
      simp only [contractCardinalUnderHundred]
      split <;> exact orRefused_ne_overflow _
  | [tens, ones] =>
      simp only [contractCardinalUnderHundred]
      cases contractNumberValue tens with
      | none => simp [orRefused, bind, Except.bind]
      | some m =>
          cases contractNumberValue ones with
          | none => simp [orRefused, bind, Except.bind]
          | some k =>
              simp only [orRefused, bind, Except.bind]
              split
              · rename_i h
                have fits : m + k < 2 ^ 64 := by omega
                simp [addU64_of_lt fits]
              · simp
  | _ :: _ :: _ :: _ => simp [contractCardinalUnderHundred]

theorem SmallGroup.numerals (small : SmallGroup group n) :
    group ≠ [] ∧ ∀ token ∈ group, ∃ m, contractNumberValue token = some m := by
  cases small with
  | digits _ read => simp [read]
  | word read _ => simp [read]
  | compound first second => simp [first, second]

theorem skipAnd_of_numeral (read : contractNumberValue value = some n) :
    skipAnd (value :: tail) = value :: tail := by
  simp [skipAnd, numeral_ne_and read]

theorem skipAnd_joined (joint : joined = [] ∨ joined = ["and"])
    (read : contractNumberValue value = some n) :
    skipAnd (joined ++ value :: tail) = value :: tail := by
  obtain rfl | rfl := joint
  · exact skipAnd_of_numeral read
  · rfl

theorem skipAnd_cases (tail : List String) :
    ∃ joined, (joined = [] ∨ joined = ["and"]) ∧ tail = joined ++ skipAnd tail := by
  cases tail with
  | nil => exact ⟨[], .inl rfl, rfl⟩
  | cons value rest =>
      by_cases joint : value = "and"
      · exact ⟨["and"], .inr rfl, by simp [skipAnd, joint]⟩
      · exact ⟨[], .inl rfl, by simp [skipAnd, joint]⟩

theorem contractHundreds_eq (read : contractNumberValue value = some m) (lower : 1 ≤ m)
    (upper : m ≤ 9) :
    contractHundreds value tail = (contractRemainder (skipAnd tail)).bind (addU64 (m * 100)) := by
  have fits : m * 100 < 2 ^ 64 := by omega
  simp only [contractHundreds, read, orRefused, lower, upper, bind, Except.bind, and_self, if_true,
    mulU64, if_pos fits]

theorem contractHundreds_cases (h : contractHundreds value tail ≠ .error .refused) :
    ∃ m, contractNumberValue value = some m ∧ 1 ≤ m ∧ m ≤ 9 := by
  cases read : contractNumberValue value with
  | none => simp [contractHundreds, read, orRefused, bind, Except.bind] at h
  | some m =>
      by_cases digit : 1 ≤ m ∧ m ≤ 9
      · exact ⟨m, rfl, digit⟩
      · simp [contractHundreds, read, orRefused, bind, Except.bind, digit] at h

theorem contractRemainder_eq_ok :
    contractRemainder tail = .ok n ↔ tail = [] ∧ n = 0 ∨ SmallGroup tail n := by
  cases tail with
  | nil =>
      have none : ¬ SmallGroup [] n := fun small => small.numerals.1 rfl
      simp [contractRemainder, none, eq_comm]
  | cons value rest => simp [contractRemainder, underHundred_eq_ok]

theorem contractRemainder_ne_overflow (tail : List String) :
    contractRemainder tail ≠ .error .overflow := by
  simp only [contractRemainder]
  split
  · simp
  · exact underHundred_ne_overflow tail

theorem contractHundreds_eq_ok :
    contractHundreds value tail = .ok n ↔ CardinalGroup (value :: "hundred" :: tail) n := by
  constructor
  · intro read
    obtain ⟨m, number, lower, upper⟩ := contractHundreds_cases (by rw [read]; simp)
    rw [contractHundreds_eq number lower upper] at read
    obtain ⟨joined, joint, split⟩ := skipAnd_cases tail
    cases rest : contractRemainder (skipAnd tail) with
    | error unread => simp [rest, Except.bind] at read
    | ok k =>
        simp only [rest, Except.bind] at read
        obtain ⟨empty, rfl⟩ | small := contractRemainder_eq_ok.mp rest
        · have fits : m * 100 + 0 < 2 ^ 64 := by omega
          rw [addU64_of_lt fits, Nat.add_zero] at read
          cases read
          rw [split, empty, List.append_nil]
          exact .hundreds number lower upper joint
        · by_cases fits : m * 100 + k < 2 ^ 64
          · rw [addU64_of_lt fits] at read
            cases read
            rw [split]
            exact .tailed number lower upper joint small fits
          · rw [addU64_of_le (Nat.not_lt.mp fits)] at read
            cases read
  · intro group
    generalize whole : value :: "hundred" :: tail = values at group
    cases group with
    | small small =>
        subst whole
        obtain ⟨k, hundred⟩ := small.numerals.2 "hundred" (by simp)
        exact absurd rfl (numeral_ne_hundred hundred)
    | @hundreds _ m _ number lower upper joint =>
        simp only [List.cons.injEq, true_and] at whole
        obtain ⟨rfl, rfl⟩ := whole
        have behind : skipAnd tail = [] := by obtain rfl | rfl := joint <;> rfl
        have fits : m * 100 + 0 < 2 ^ 64 := by omega
        rw [contractHundreds_eq number lower upper, behind,
          (contractRemainder_eq_ok).mpr (.inl ⟨rfl, rfl⟩)]
        simp only [Except.bind]
        rw [addU64_of_lt fits, Nat.add_zero]
    | @tailed _ m joined back k number lower upper joint small fits =>
        simp only [List.cons.injEq, true_and] at whole
        obtain ⟨rfl, rfl⟩ := whole
        have behind : skipAnd (joined ++ back) = back := by
          obtain ⟨filled, numerals⟩ := small.numerals
          obtain ⟨first, rest, rfl⟩ := List.exists_cons_of_ne_nil filled
          obtain ⟨_, first⟩ := numerals first (by simp)
          exact skipAnd_joined joint first
        rw [contractHundreds_eq number lower upper, behind,
          (contractRemainder_eq_ok).mpr (.inr small)]
        simp only [Except.bind]
        rw [addU64_of_lt fits]

theorem underThousand_cases (group : List String) :
    (∃ value tail, group = value :: "hundred" :: tail) ∨
      contractCardinalUnderThousand group = contractCardinalUnderHundred group := by
  match group with
  | [] => exact .inr rfl
  | [_] => exact .inr rfl
  | value :: second :: tail =>
      by_cases hundred : second = "hundred"
      · exact .inl ⟨value, tail, by rw [hundred]⟩
      · exact .inr (by simp [contractCardinalUnderThousand, hundred])

theorem underThousand_hundreds (value : String) (tail : List String) :
    contractCardinalUnderThousand (value :: "hundred" :: tail) = contractHundreds value tail := by
  simp [contractCardinalUnderThousand]

theorem underThousand_eq_ok :
    contractCardinalUnderThousand group = .ok n ↔ CardinalGroup group n := by
  obtain ⟨value, tail, rfl⟩ | same := underThousand_cases group
  · rw [underThousand_hundreds, contractHundreds_eq_ok]
  · rw [same, underHundred_eq_ok]
    constructor
    · exact .small
    · intro read
      cases read with
      | small small => exact small
      | hundreds number lower upper joint =>
          rw [← underHundred_eq_ok, ← same, underThousand_hundreds, contractHundreds_eq_ok]
          exact .hundreds number lower upper joint
      | tailed number lower upper joint small fits =>
          rw [← underHundred_eq_ok, ← same, underThousand_hundreds, contractHundreds_eq_ok]
          exact .tailed number lower upper joint small fits

/-- A group overflows exactly when its hundreds stand in front of too large a numeral. -/
theorem underThousand_overflow :
    contractCardinalUnderThousand group = .error .overflow ↔ HugeHundreds group := by
  constructor
  · intro overflow
    obtain ⟨value, tail, rfl⟩ | same := underThousand_cases group
    · rw [underThousand_hundreds] at overflow
      obtain ⟨m, number, lower, upper⟩ := contractHundreds_cases (by rw [overflow]; simp)
      rw [contractHundreds_eq number lower upper] at overflow
      obtain ⟨joined, joint, split⟩ := skipAnd_cases tail
      cases rest : contractRemainder (skipAnd tail) with
      | error unread =>
          rw [rest] at overflow
          cases overflow
          exact absurd rest (contractRemainder_ne_overflow _)
      | ok k =>
          simp only [rest, Except.bind] at overflow
          have exceeds : 2 ^ 64 ≤ m * 100 + k := by
            by_contra fits
            rw [addU64_of_lt (Nat.not_le.mp fits)] at overflow
            cases overflow
          obtain ⟨empty, rfl⟩ | small := contractRemainder_eq_ok.mp rest
          · omega
          · generalize skipAnd tail = behind at small split
            cases small with
            | @digits token _ digits read =>
                exact ⟨value, m, joined, token, k, by rw [split], joint, number, lower, upper,
                  digits, read, exceeds⟩
            | word _ small => omega
            | compound => omega
    · exact absurd (same ▸ overflow) (underHundred_ne_overflow group)
  · rintro ⟨value, m, joined, token, n, rfl, joint, number, lower, upper, digits, read, exceeds⟩
    rw [underThousand_hundreds, contractHundreds_eq number lower upper,
      skipAnd_joined joint read, (contractRemainder_eq_ok).mpr (.inr (.digits digits read))]
    simp only [Except.bind]
    rw [addU64_of_le exceeds]

end Groups

end DocumentSummarizer.Coherent
