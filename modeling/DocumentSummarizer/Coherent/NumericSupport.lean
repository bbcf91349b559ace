import Mathlib.Order.UpperLower.Basic
import DocumentSummarizer.Library.Utf8Text
import DocumentSummarizer.Library.NumeralText

/-! # Comparing numbers

The guard on numeric comparisons reads decimal numerals as canonical texts, compares
the texts, and decides from the order of two values whether a relation to the one
entails a relation to the other.
-/

namespace DocumentSummarizer.Coherent

open Library

inductive NumericRelation where
  | equal
  | atMost
  | lessThan
  | atLeast
  | greaterThan
  | notEqual
  deriving DecidableEq, Repr

/-! ## Values -/

/-- The sign of a word, whether it is a minus, and the rest. -/
def stripSign : List Char → Bool × List Char
  | '-' :: rest => (true, rest)
  | '+' :: rest => (false, rest)
  | word => (false, word)

/-- The digits without zeros in front of the integer part and behind the fraction. -/
def normalizedDigits (integer : List Char) (fraction : Option (List Char)) : List Char :=
  let integer := integer.dropWhile (· == '0')
  let integer := if integer = [] then ['0'] else integer
  match fraction.map (·.rdropWhile (· == '0')) with
  | some [] | none => integer
  | some value => integer ++ '.' :: value

def numericValue (word : List Char) : Option (List Char) :=
  let (negative, word) := stripSign word
  match splitWhere (· == '.') word with
  | [] => none
  | integer :: parts =>
    let fraction := parts.head?
    if parts[1]?.isSome || integer.isEmpty || !integer.all Char.isDigit ||
        fraction.any fun value => value.isEmpty || !value.all Char.isDigit then
      none
    else
      let normalized := normalizedDigits integer fraction
      some (if negative && normalized != ['0'] then '-' :: normalized else normalized)

/-! ## Order -/

/-- `split_once` -/
def splitOnce (separator : Char) (text : List Char) : Option (List Char × List Char) :=
  match text.dropWhile (· != separator) with
  | [] => none
  | _ :: back => some (text.takeWhile (· != separator), back)

def numericValueParts (value : List Char) : Option (Bool × List Char × List Char) :=
  let (negative, unsigned) :=
    match value with
    | '-' :: unsigned => (true, unsigned)
    | _ => (false, value)
  let (integer, fraction) := (splitOnce '.' unsigned).getD (unsigned, [])
  if !integer.isEmpty && integer.all Char.isDigit && fraction.all Char.isDigit then
    some (negative, integer, fraction)
  else
    none

def absoluteNumericValueOrder
    (leftInteger leftFraction rightInteger rightFraction : List Char) : Ordering :=
  ((compare (byteLength leftInteger) (byteLength rightInteger)).then
    (compare leftInteger rightInteger)).then
    (let length := max (byteLength leftFraction) (byteLength rightFraction)
    (((List.range length).map fun index =>
      compare (leftFraction[index]?.getD '0') (rightFraction[index]?.getD '0')).find?
        (· != .eq)).getD .eq)

def numericValueOrder (left right : List Char) : Option Ordering := do
  let (leftNegative, leftInteger, leftFraction) ← numericValueParts left
  let (rightNegative, rightInteger, rightFraction) ← numericValueParts right
  return match leftNegative, rightNegative with
    | true, false => .lt
    | false, true => .gt
    | false, false =>
      absoluteNumericValueOrder leftInteger leftFraction rightInteger rightFraction
    | true, true =>
      (absoluteNumericValueOrder leftInteger leftFraction rightInteger rightFraction).swap

/-! ## Entailment -/

def numericRelationSupports (source claim : NumericRelation) (sourceToClaim : Ordering) : Bool :=
  match source, claim with
  | .equal, .equal => sourceToClaim == .eq
  | .equal, .atMost => sourceToClaim != .gt
  | .equal, .lessThan => sourceToClaim == .lt
  | .equal, .atLeast => sourceToClaim != .lt
  | .equal, .greaterThan => sourceToClaim == .gt
  | .equal, .notEqual => sourceToClaim != .eq
  | .atMost, .atMost => sourceToClaim != .gt
  | .atMost, .lessThan => sourceToClaim == .lt
  | .atMost, .notEqual => sourceToClaim == .lt
  | .lessThan, .lessThan | .lessThan, .atMost | .lessThan, .notEqual => sourceToClaim != .gt
  | .atLeast, .atLeast => sourceToClaim != .lt
  | .atLeast, .greaterThan => sourceToClaim == .gt
  | .atLeast, .notEqual => sourceToClaim == .gt
  | .greaterThan, .greaterThan | .greaterThan, .atLeast | .greaterThan, .notEqual =>
    sourceToClaim != .lt
  | .notEqual, .notEqual => sourceToClaim == .eq
  | _, _ => false

/-- The rationals that are in a relation to a value. -/
def NumericRelation.solutions (value : ℚ) : NumericRelation → Set ℚ
  | .equal => {value}
  | .atMost => Set.Iic value
  | .lessThan => Set.Iio value
  | .atLeast => Set.Ici value
  | .greaterThan => Set.Ioi value
  | .notEqual => {value}ᶜ

/-- The relations that every small enough rational is in. -/
def NumericRelation.opensBelow : NumericRelation → Bool
  | .atMost | .lessThan | .notEqual => true
  | .equal | .atLeast | .greaterThan => false

/-- The relations that every great enough rational is in. -/
def NumericRelation.opensAbove : NumericRelation → Bool
  | .atLeast | .greaterThan | .notEqual => true
  | .equal | .atMost | .lessThan => false

section Entailment

variable {a b : ℚ} {source claim : NumericRelation}

theorem bddBelow_solutions : BddBelow (source.solutions a) ↔ source.opensBelow = false := by
  cases source with
  | equal => exact iff_of_true bddBelow_singleton rfl
  | atMost => exact iff_of_false (not_bddBelow_Iic a) nofun
  | lessThan => exact iff_of_false (not_bddBelow_Iio a) nofun
  | atLeast => exact iff_of_true bddBelow_Ici rfl
  | greaterThan => exact iff_of_true bddBelow_Ioi rfl
  | notEqual =>
      have less : Set.Iio a ⊆ {a}ᶜ := fun x below => ne_of_lt below
      exact iff_of_false (fun bounded => not_bddBelow_Iio a (bounded.mono less)) nofun

theorem bddAbove_solutions : BddAbove (source.solutions a) ↔ source.opensAbove = false := by
  cases source with
  | equal => exact iff_of_true bddAbove_singleton rfl
  | atMost => exact iff_of_true bddAbove_Iic rfl
  | lessThan => exact iff_of_true bddAbove_Iio rfl
  | atLeast => exact iff_of_false (not_bddAbove_Ici a) nofun
  | greaterThan => exact iff_of_false (not_bddAbove_Ioi a) nofun
  | notEqual =>
      have more : Set.Ioi a ⊆ {a}ᶜ := fun x above => ne_of_gt above
      exact iff_of_false (fun bounded => not_bddAbove_Ioi a (bounded.mono more)) nofun

theorem not_entails_below (opens : source.opensBelow = true) (closes : claim.opensBelow = false) :
    ¬ source.solutions a ⊆ claim.solutions b := by
  intro inside
  have bounded := (bddBelow_solutions.mpr closes).mono inside
  rw [bddBelow_solutions, opens] at bounded
  cases bounded

theorem not_entails_above (opens : source.opensAbove = true) (closes : claim.opensAbove = false) :
    ¬ source.solutions a ⊆ claim.solutions b := by
  intro inside
  have bounded := (bddAbove_solutions.mpr closes).mono inside
  rw [bddAbove_solutions, opens] at bounded
  cases bounded

theorem lt_iff : (compare a b == .lt) = true ↔ a < b :=
  beq_iff_eq.trans compare_lt_iff_lt

theorem eq_iff : (compare a b == .eq) = true ↔ a = b :=
  beq_iff_eq.trans compare_eq_iff_eq

theorem gt_iff : (compare a b == .gt) = true ↔ b < a :=
  beq_iff_eq.trans compare_gt_iff_gt

theorem le_iff : (compare a b != .gt) = true ↔ a ≤ b :=
  bne_iff_ne.trans compare_le_iff_le

theorem ge_iff : (compare a b != .lt) = true ↔ b ≤ a :=
  bne_iff_ne.trans compare_ge_iff_ge

theorem ne_iff : (compare a b != .eq) = true ↔ a ≠ b :=
  bne_iff_ne.trans compare_eq_iff_eq.not

/-- A relation to one value entails a relation to another exactly when the guard says so. -/
theorem numericRelationSupports_iff (source claim : NumericRelation) :
    numericRelationSupports source claim (compare a b) = true ↔
      source.solutions a ⊆ claim.solutions b := by
  have other : ∀ values : Set ℚ, values ⊆ {b}ᶜ ↔ b ∉ values :=
    fun values => Set.subset_compl_singleton_iff
  cases source with
  | equal =>
      cases claim <;>
        simp only [numericRelationSupports, NumericRelation.solutions, Set.singleton_subset_iff,
          Set.mem_singleton_iff, Set.mem_Iic, Set.mem_Iio, Set.mem_Ici, Set.mem_Ioi,
          Set.mem_compl_iff, lt_iff, eq_iff, gt_iff, le_iff, ge_iff, ne_iff, ne_eq]
  | atMost =>
      cases claim with
      | atMost => exact le_iff.trans Set.Iic_subset_Iic.symm
      | lessThan => exact lt_iff.trans Set.Iic_subset_Iio.symm
      | notEqual => exact lt_iff.trans (not_le.symm.trans (other (Set.Iic a)).symm)
      | _ => exact iff_of_false nofun (not_entails_below rfl rfl)
  | lessThan =>
      cases claim with
      | atMost => exact le_iff.trans Set.Iio_subset_Iic_iff.symm
      | lessThan => exact le_iff.trans Set.Iio_subset_Iio_iff.symm
      | notEqual => exact le_iff.trans (not_lt.symm.trans (other (Set.Iio a)).symm)
      | _ => exact iff_of_false nofun (not_entails_below rfl rfl)
  | atLeast =>
      cases claim with
      | atLeast => exact ge_iff.trans Set.Ici_subset_Ici.symm
      | greaterThan => exact gt_iff.trans Set.Ici_subset_Ioi.symm
      | notEqual => exact gt_iff.trans (not_le.symm.trans (other (Set.Ici a)).symm)
      | _ => exact iff_of_false nofun (not_entails_above rfl rfl)
  | greaterThan =>
      cases claim with
      | atLeast => exact ge_iff.trans Set.Ioi_subset_Ici_iff.symm
      | greaterThan => exact ge_iff.trans Set.Ioi_subset_Ioi_iff.symm
      | notEqual => exact ge_iff.trans (not_lt.symm.trans (other (Set.Ioi a)).symm)
      | _ => exact iff_of_false nofun (not_entails_above rfl rfl)
  | notEqual =>
      cases claim with
      | notEqual =>
          refine eq_iff.trans (Iff.trans ?_ (other {a}ᶜ).symm)
          rw [Set.mem_compl_iff, not_not, Set.mem_singleton_iff, eq_comm]
      | atMost | lessThan => exact iff_of_false nofun (not_entails_above rfl rfl)
      | _ => exact iff_of_false nofun (not_entails_below rfl rfl)

end Entailment

/-! ## Reading numerals -/

section Reading

variable {word text : List Char}

theorem splitWhere_whole {separates : Char → Bool} (h : ∀ c ∈ text, separates c = false) :
    splitWhere separates text = [text] := by
  induction text with
  | nil => rfl
  | cons c rest ih =>
      rw [List.forall_mem_cons] at h
      simp [splitWhere, h.1, ih h.2]

theorem intercalate_splitWhere (separator : Char) (text : List Char) :
    [separator].intercalate (splitWhere (· == separator) text) = text := by
  induction text with
  | nil => rfl
  | cons c rest ih =>
      unfold splitWhere
      cases pieces : splitWhere (· == separator) rest with
      | nil => exact absurd pieces (splitWhere_ne_nil _ _)
      | cons piece later =>
          rw [pieces] at ih
          split
          next same =>
            rw [List.intercalate_cons_cons, ih, beq_iff_eq.mp same]
            rfl
          next =>
            dsimp only
            cases later with
            | nil => simpa [List.intercalate] using ih
            | cons next later =>
                rw [List.intercalate_cons_cons] at ih ⊢
                rw [← ih]
                rfl

theorem digits_plain {c : Char} (digits : IsDigits text) (other : c.isDigit = false) :
    c ∉ text := by
  intro mem
  rw [digits c mem] at other
  cases other

theorem isDigits_iff_all : IsDigits text ↔ text.all Char.isDigit = true :=
  List.all_eq_true.symm

theorem stripSign_text (numeral : Numeral) : stripSign numeral.text =
    (numeral.sign == some true,
      numeral.integer ++ (numeral.fraction.map ('.' :: ·)).getD []) := by
  cases sign : numeral.sign with
  | some minus => cases minus <;> simp [Numeral.text, signText, sign, stripSign]
  | none =>
      obtain ⟨c, rest, shape⟩ := List.exists_cons_of_ne_nil numeral.nonempty
      have digit := numeral.integer_digits c (shape ▸ List.mem_cons_self)
      have minus : c ≠ '-' := fun same => absurd digit (by rw [same]; decide)
      have plus : c ≠ '+' := fun same => absurd digit (by rw [same]; decide)
      simp only [Numeral.text, signText, sign, shape, List.nil_append, List.cons_append]
      unfold stripSign
      split
      next same => exact absurd (List.cons.inj same).1 minus
      next same => exact absurd (List.cons.inj same).1 plus
      next => rfl

theorem splitWhere_parts (numeral : Numeral) :
    splitWhere (· == '.') (numeral.integer ++ (numeral.fraction.map ('.' :: ·)).getD []) =
      numeral.integer :: numeral.fraction.toList := by
  have plain : ∀ {text : List Char}, IsDigits text → ∀ c ∈ text, (c == '.') = false := by
    intro text digits c mem
    rw [beq_eq_false_iff_ne]
    rintro rfl
    exact digits_plain digits (by decide) mem
  have whole := splitWhere_whole (plain numeral.integer_digits)
  cases found : numeral.fraction with
  | none => simpa using whole
  | some fraction =>
      have digits : IsDigits fraction := by
        have held := numeral.fraction_digits
        rwa [found] at held
      simp only [Option.map_some, Option.getD_some, Option.toList_some]
      rw [splitWhere_append (by decide), whole, splitWhere_whole (plain digits)]
      rfl

theorem fraction_checked (numeral : Numeral) : (numeral.fraction.toList.head?.any fun value =>
    value.isEmpty || !value.all Char.isDigit) = false := by
  have visible := numeral.fraction_nonempty
  have digits := numeral.fraction_digits
  cases found : numeral.fraction with
  | none => rfl
  | some fraction =>
      rw [found] at visible digits
      have some_digit : fraction.isEmpty = false := by
        rw [List.isEmpty_eq_false_iff]
        exact fun empty => visible (congrArg some empty)
      have all : fraction.all Char.isDigit = true := isDigits_iff_all.mp digits
      show (fraction.isEmpty || !fraction.all Char.isDigit) = false
      rw [some_digit, all]
      rfl

theorem normalizedDigits_eq (numeral : Numeral) :
    normalizedDigits numeral.integer numeral.fraction.toList.head? =
      numeral.canonical.unsignedText := by
  show _ = numeral.trimmedInteger ++ if numeral.trimmedFraction = [] then [] else
    '.' :: numeral.trimmedFraction
  unfold normalizedDigits Numeral.trimmedFraction Numeral.trimmedInteger
  cases numeral.fraction with
  | none => simp
  | some fraction =>
      simp only [Option.toList_some, List.head?_cons, Option.map_some, Option.getD_some]
      cases trimmed : fraction.rdropWhile (· == '0') with
      | nil => simp
      | cons c rest => simp

theorem unsignedText_ne_zero (decimal : Decimal) : (decimal.unsignedText != ['0']) =
    !decide (decimal.integer = ['0'] ∧ decimal.fraction = []) := by
  have zero : decimal.unsignedText = ['0'] ↔ decimal.integer = ['0'] ∧ decimal.fraction = [] := by
    constructor
    · intro same
      unfold Decimal.unsignedText at same
      split at same
      next whole => exact ⟨by simpa using same, whole⟩
      next =>
        have lengths := congrArg List.length same
        have some_digit := List.length_pos_iff.mpr decimal.leads.nonempty
        simp only [List.length_append, List.length_cons, List.length_nil] at lengths
        omega
    · rintro ⟨integer, fraction⟩
      simp [Decimal.unsignedText, integer, fraction]
  rw [Bool.eq_iff_iff, bne_iff_ne, Bool.not_eq_true', decide_eq_false_iff_not, ne_eq, zero]

theorem numericValue_text (numeral : Numeral) :
    numericValue numeral.text = some numeral.canonical.text := by
  have integer : numeral.integer.isEmpty = false := by
    rw [List.isEmpty_eq_false_iff]
    exact numeral.nonempty
  have digits : numeral.integer.all Char.isDigit = true :=
    isDigits_iff_all.mp numeral.integer_digits
  have single : numeral.fraction.toList[1]?.isSome = false := by
    cases numeral.fraction <;> rfl
  unfold numericValue
  rw [stripSign_text]
  dsimp only
  rw [splitWhere_parts]
  dsimp only
  rw [single, integer, digits, fraction_checked, normalizedDigits_eq, unsignedText_ne_zero]
  show some (if numeral.canonical.negative = true then '-' :: numeral.canonical.unsignedText
    else numeral.canonical.unsignedText) =
      some ((if numeral.canonical.negative then ['-'] else []) ++ numeral.canonical.unsignedText)
  cases numeral.canonical.negative <;> rfl

theorem exists_sign (word : List Char) : ∃ sign, signText sign ++ (stripSign word).2 = word := by
  unfold stripSign
  split
  · exact ⟨some true, rfl⟩
  · exact ⟨some false, rfl⟩
  · exact ⟨none, rfl⟩

/-- The guard reads nothing else than numerals. -/
theorem numeral_of_numericValue {value : List Char} (h : numericValue word = some value) :
    ∃ numeral : Numeral, numeral.text = word := by
  unfold numericValue at h
  dsimp only at h
  obtain ⟨sign, whole⟩ := exists_sign word
  have joined := intercalate_splitWhere '.' (stripSign word).2
  cases pieces : splitWhere (· == '.') (stripSign word).2 with
  | nil => exact absurd pieces (splitWhere_ne_nil _ _)
  | cons integer parts =>
      rw [pieces] at h joined
      dsimp only at h
      split at h
      next => cases h
      next accepted =>
        simp only [Bool.or_eq_true, not_or, Bool.not_eq_true] at accepted
        obtain ⟨⟨⟨single, visible⟩, digits⟩, fraction⟩ := accepted
        have nonempty : integer ≠ [] := List.isEmpty_eq_false_iff.mp visible
        have integer_digits : IsDigits integer := isDigits_iff_all.mpr (by simpa using digits)
        rcases parts with _ | ⟨piece, _ | ⟨next, later⟩⟩
        · refine ⟨⟨sign, integer, none, nonempty, integer_digits, nofun, nofun⟩, ?_⟩
          rw [← whole, ← joined]
          simp [Numeral.text, List.intercalate]
        · simp only [List.head?_cons, Option.any_some, Bool.or_eq_false_iff,
            Bool.not_eq_false'] at fraction
          have fraction_nonempty : piece ≠ [] := List.isEmpty_eq_false_iff.mp fraction.1
          refine ⟨⟨sign, integer, some piece, nonempty, integer_digits,
            fun empty => fraction_nonempty (Option.some.inj empty),
            isDigits_iff_all.mpr fraction.2⟩, ?_⟩
          rw [← whole, ← joined]
          simp [Numeral.text, List.intercalate]
        · cases single

end Reading

/-! ## The order of canonical texts -/

section Ordering

variable {left right : List Char}

theorem byteLength_digits {text : List Char} (digits : IsDigits text) :
    byteLength text = text.length := by
  induction text with
  | nil => rfl
  | cons c rest ih =>
      have bounds := digit_bounds (digits c List.mem_cons_self)
      have small : c.utf8Size = 1 := by
        rw [Char.utf8Size_eq_one_iff, UInt32.le_iff_toNat_le]
        exact bounds.2.trans (by decide)
      rw [byteLength_cons, List.length_cons, ih fun d mem => digits d (List.mem_cons_of_mem _ mem),
        small, Nat.add_comm]

theorem firstDifference_eq (same : left.length = right.length) :
    (((List.range left.length).map fun index =>
      compare (left[index]?.getD '0') (right[index]?.getD '0')).find? (· != .eq)).getD .eq =
        compare left right := by
  induction left generalizing right with
  | nil =>
      obtain rfl := List.eq_nil_of_length_eq_zero same.symm
      rfl
  | cons c left ih =>
      cases right with
      | nil => cases same
      | cons d right =>
          have later := ih (Nat.succ.inj same)
          rw [List.length_cons, List.range_succ_eq_map, List.map_cons, List.map_map,
            List.find?_cons, List.compare_cons_cons, ← later]
          have first : compare ((c :: left)[0]?.getD '0') ((d :: right)[0]?.getD '0') =
              compare c d := rfl
          rw [first]
          cases compare c d with
          | lt => rfl
          | gt => rfl
          | eq => rfl

theorem getD_padded {fraction : List Char} (length index : Nat) :
    (padded length fraction)[index]?.getD '0' = fraction[index]?.getD '0' := by
  unfold padded
  rcases Nat.lt_or_ge index fraction.length with inside | outside
  · rw [List.getElem?_append_left inside]
  · rw [List.getElem?_append_right outside, List.getElem?_eq_none outside, List.getElem?_replicate]
    split <;> rfl

theorem absoluteNumericValueOrder_eq (a b : Decimal) :
    absoluteNumericValueOrder a.integer a.fraction b.integer b.fraction =
      compare a.magnitude b.magnitude := by
  have fits := @length_padded a.fraction (max a.fraction.length b.fraction.length)
    (le_max_left _ _)
  have fits' := @length_padded b.fraction (max a.fraction.length b.fraction.length)
    (le_max_right _ _)
  have fractions := firstDifference_eq (fits.trans fits'.symm)
  rw [fits] at fractions
  simp only [getD_padded] at fractions
  rw [Decimal.compare_magnitude, ← fractions, absoluteNumericValueOrder,
    byteLength_digits a.leads.digits, byteLength_digits b.leads.digits,
    byteLength_digits a.digits, byteLength_digits b.digits]

theorem splitOnce_unsignedText (decimal : Decimal) :
    (splitOnce '.' decimal.unsignedText).getD (decimal.unsignedText, []) =
      (decimal.integer, decimal.fraction) := by
  have plain : ∀ c ∈ decimal.integer, (c != '.') = true := by
    intro c mem
    rw [bne_iff_ne]
    rintro rfl
    exact digits_plain decimal.leads.digits (by decide) mem
  unfold splitOnce Decimal.unsignedText
  rw [List.dropWhile_append_of_pos plain, List.takeWhile_append_of_pos plain]
  by_cases whole : decimal.fraction = [] <;> simp [whole]

theorem numericValueParts_text (decimal : Decimal) : numericValueParts decimal.text =
    some (decimal.negative, decimal.integer, decimal.fraction) := by
  have nonempty : decimal.integer.isEmpty = false :=
    List.isEmpty_eq_false_iff.mpr decimal.leads.nonempty
  have integer : decimal.integer.all Char.isDigit = true :=
    isDigits_iff_all.mp decimal.leads.digits
  have fraction : decimal.fraction.all Char.isDigit = true := isDigits_iff_all.mp decimal.digits
  have sign : (match decimal.text with
      | '-' :: unsigned => (true, unsigned)
      | _ => (false, decimal.text)) = (decimal.negative, decimal.unsignedText) := by
    unfold Decimal.text
    cases decimal.negative with
    | true => rfl
    | false =>
        obtain ⟨c, rest, shape⟩ := List.exists_cons_of_ne_nil decimal.leads.nonempty
        have digit := decimal.leads.digits c (shape ▸ List.mem_cons_self)
        have minus : c ≠ '-' := fun same => absurd digit (by rw [same]; decide)
        simp only [Bool.false_eq_true, if_false, List.nil_append, Decimal.unsignedText, shape,
          List.cons_append]
        split
        next same => exact absurd (List.cons.inj same).1 minus
        next => rfl
  unfold numericValueParts
  rw [sign]
  dsimp only
  rw [splitOnce_unsignedText]
  dsimp only
  rw [nonempty, integer, fraction]
  rfl

theorem numericValueOrder_text (a b : Decimal) :
    numericValueOrder a.text b.text = some (compare a.value b.value) := by
  rw [numericValueOrder, numericValueParts_text, numericValueParts_text, Decimal.compare_value]
  simp only [absoluteNumericValueOrder_eq, Option.bind_eq_bind, Option.bind_some]
  rfl

end Ordering

/-- Decimal numerals are what the guard reads.  Their canonical texts are equal exactly when they
denote one rational, the texts are ordered as the rationals, and relations to the texts entail each
other as relations to the rationals do. -/
theorem numeric_guard_entails :
    (∀ word value, numericValue word = some value → ∃ numeral : Numeral, numeral.text = word) ∧
      ∀ a b : Numeral, ∃ left right order,
        numericValue a.text = some left ∧ numericValue b.text = some right ∧
          (left = right ↔ a.value = b.value) ∧
          numericValueOrder left right = some order ∧ order = compare a.value b.value ∧
          ∀ source claim, numericRelationSupports source claim order = true ↔
            source.solutions a.value ⊆ claim.solutions b.value := by
  refine ⟨fun word value => numeral_of_numericValue, fun a b => ?_⟩
  refine ⟨_, _, _, numericValue_text a, numericValue_text b, ?_, numericValueOrder_text _ _, ?_, ?_⟩
  · rw [← a.canonical_value, ← b.canonical_value]
    refine ⟨fun same => ?_, Decimal.text_of_value⟩
    have order := numericValueOrder_text a.canonical b.canonical
    rw [same, numericValueOrder_text, compare_eq_iff_eq.mpr rfl] at order
    exact compare_eq_iff_eq.mp (Option.some.inj order).symm
  · rw [a.canonical_value, b.canonical_value]
  · intro source claim
    rw [a.canonical_value, b.canonical_value]
    exact numericRelationSupports_iff source claim

end DocumentSummarizer.Coherent
