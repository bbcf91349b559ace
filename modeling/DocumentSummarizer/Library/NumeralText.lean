import Mathlib

/-! # Decimal texts

Decimal numerals of any length, the rationals that they denote, and the canonical
one among those of a rational.  Canonical numerals are compared by the lengths and
the digits of their parts.
-/

namespace DocumentSummarizer.Library

/-! ## Digits -/

def IsDigits (text : List Char) : Prop :=
  ∀ c ∈ text, c.isDigit = true

/-- The number that digits spell. -/
def digitsValue (text : List Char) : Nat :=
  Nat.ofDigitChars 10 text 0

section Digits

variable {text front back left right : List Char} {c d : Char}

theorem isDigits_append : IsDigits (front ++ back) ↔ IsDigits front ∧ IsDigits back := by
  simp only [IsDigits, List.mem_append, or_imp, forall_and]

theorem isDigits_replicate (n : Nat) : IsDigits (List.replicate n '0') := by
  intro c mem
  obtain rfl := List.eq_of_mem_replicate mem
  decide

theorem digitsValue_append :
    digitsValue (front ++ back) = digitsValue front * 10 ^ back.length + digitsValue back := by
  rw [digitsValue, Nat.ofDigitChars_append, Nat.ofDigitChars_eq_ofDigitChars_zero, Nat.mul_comm]
  rfl

theorem digitsValue_cons :
    digitsValue (c :: text) = (c.toNat - 48) * 10 ^ text.length + digitsValue text := by
  rw [← List.singleton_append, digitsValue_append]
  congr 2
  rw [digitsValue, Nat.ofDigitChars_cons, Nat.ofDigitChars_nil, Nat.mul_zero, Nat.zero_add]
  rfl

theorem digit_bounds (digit : c.isDigit = true) : 48 ≤ c.toNat ∧ c.toNat ≤ 57 := by
  simp only [Char.isDigit, Bool.and_eq_true, decide_eq_true_eq] at digit
  exact ⟨UInt32.le_iff_toNat_le.mp digit.1, UInt32.le_iff_toNat_le.mp digit.2⟩

theorem digitsValue_lt (digits : IsDigits text) : digitsValue text < 10 ^ text.length := by
  induction text with
  | nil => decide
  | cons c rest ih =>
      have bounds := digit_bounds (digits c List.mem_cons_self)
      have later := ih fun d mem => digits d (List.mem_cons_of_mem _ mem)
      rw [digitsValue_cons, List.length_cons, Nat.pow_succ]
      have digit : c.toNat - 48 ≤ 9 := by omega
      have first := Nat.mul_le_mul_right (10 ^ rest.length) digit
      omega

theorem le_digitsValue (digit : c.isDigit = true) (visible : c ≠ '0') :
    10 ^ text.length ≤ digitsValue (c :: text) := by
  have bounds := digit_bounds digit
  have positive : 1 ≤ c.toNat - 48 := by
    have other : c.toNat ≠ 48 := fun zero => visible (Char.toNat_inj.mp zero)
    omega
  rw [digitsValue_cons]
  have place := Nat.mul_le_mul_right (10 ^ text.length) positive
  omega

end Digits

/-! ## Comparing digits -/

section Comparing

variable {left right left' right' : List Char} {c d : Char}

theorem compare_append (same : left.length = right.length) :
    compare (left ++ left') (right ++ right') =
      (compare left right).then (compare left' right') := by
  induction left generalizing right with
  | nil =>
      obtain rfl := List.eq_nil_of_length_eq_zero same.symm
      rfl
  | cons c left ih =>
      cases right with
      | nil => cases same
      | cons d right =>
          have rest := ih (Nat.succ.inj same)
          simp only [List.cons_append, List.compare_cons_cons, rest, Ordering.then_assoc]

theorem compare_char (c d : Char) : compare c d = compare c.toNat d.toNat := by
  have chars : compare c d = compareOfLessAndEq c d := rfl
  have codes : compare c.toNat d.toNat = compareOfLessAndEq c.toNat d.toNat := rfl
  have less : c < d ↔ c.toNat < d.toNat := Iff.rfl
  rw [chars, codes, compareOfLessAndEq, compareOfLessAndEq]
  simp only [less, Char.toNat_inj]

/-- A place counts before everything below it. -/
theorem compare_places {place a b x y : Nat} (below : x < place) (below' : y < place) :
    compare (a * place + x) (b * place + y) = (compare a b).then (compare x y) := by
  rcases Nat.lt_trichotomy a b with less | rfl | more
  · have above := Nat.mul_le_mul_right place (Nat.succ_le_of_lt less)
    rw [Nat.succ_mul] at above
    rw [compare_lt_iff_lt.mpr less, compare_lt_iff_lt.mpr (by omega)]
    rfl
  · rw [compare_eq_iff_eq.mpr rfl, Ordering.then]
    rcases Nat.lt_trichotomy x y with less | rfl | more
    · rw [compare_lt_iff_lt.mpr less, compare_lt_iff_lt.mpr (by omega)]
    · rw [compare_eq_iff_eq.mpr rfl, compare_eq_iff_eq.mpr rfl]
    · rw [compare_gt_iff_gt.mpr more, compare_gt_iff_gt.mpr (by omega)]
  · have above := Nat.mul_le_mul_right place (Nat.succ_le_of_lt more)
    rw [Nat.succ_mul] at above
    rw [compare_gt_iff_gt.mpr more, compare_gt_iff_gt.mpr (by omega)]
    rfl

theorem compare_digitsValue (digits : IsDigits left) (digits' : IsDigits right)
    (same : left.length = right.length) :
    compare left right = compare (digitsValue left) (digitsValue right) := by
  induction left generalizing right with
  | nil =>
      obtain rfl := List.eq_nil_of_length_eq_zero same.symm
      rfl
  | cons c left ih =>
      cases right with
      | nil => cases same
      | cons d right =>
          have lengths := Nat.succ.inj same
          have bounds := digit_bounds (digits c List.mem_cons_self)
          have bounds' := digit_bounds (digits' d List.mem_cons_self)
          have rest : IsDigits left := fun e mem => digits e (List.mem_cons_of_mem _ mem)
          have rest' : IsDigits right := fun e mem => digits' e (List.mem_cons_of_mem _ mem)
          have first : compare c d = compare (c.toNat - 48) (d.toNat - 48) := by
            rw [compare_char]
            rcases Nat.lt_trichotomy c.toNat d.toNat with less | equal | more
            · rw [compare_lt_iff_lt.mpr less, compare_lt_iff_lt.mpr (by omega)]
            · rw [equal]
              rw [compare_eq_iff_eq.mpr rfl, compare_eq_iff_eq.mpr rfl]
            · rw [compare_gt_iff_gt.mpr more, compare_gt_iff_gt.mpr (by omega)]
          rw [List.compare_cons_cons, ih rest rest' lengths, digitsValue_cons, digitsValue_cons,
            ← lengths, compare_places (digitsValue_lt rest) (lengths ▸ digitsValue_lt rest'), first]

end Comparing

/-! ## Magnitudes -/

/-- The rational of an integer part and a fraction part. -/
def magnitude (integer fraction : List Char) : ℚ :=
  digitsValue (integer ++ fraction) / 10 ^ fraction.length

/-- A fraction with zeros behind it. -/
def padded (length : Nat) (fraction : List Char) : List Char :=
  fraction ++ List.replicate (length - fraction.length) '0'

section Magnitudes

variable {integer fraction integer' fraction' : List Char} {length : Nat}

theorem length_padded (h : fraction.length ≤ length) : (padded length fraction).length = length := by
  rw [padded, List.length_append, List.length_replicate]
  omega

theorem isDigits_padded (digits : IsDigits fraction) : IsDigits (padded length fraction) :=
  isDigits_append.mpr ⟨digits, isDigits_replicate _⟩

theorem digitsValue_zeros (front : List Char) (n : Nat) :
    digitsValue (front ++ List.replicate n '0') = digitsValue front * 10 ^ n := by
  have zeros : digitsValue (List.replicate n '0') = 0 := by
    rw [digitsValue, Nat.ofDigitChars_replicate_zero, Nat.mul_zero]
  rw [digitsValue_append, zeros, List.length_replicate, Nat.add_zero]

theorem magnitude_padded (h : fraction.length ≤ length) :
    magnitude integer fraction =
      digitsValue (integer ++ padded length fraction) / 10 ^ length := by
  have whole : (10 : ℚ) ^ length =
      10 ^ fraction.length * 10 ^ (length - fraction.length) := by
    rw [← pow_add]
    congr 1
    omega
  have place : (10 : ℚ) ^ (length - fraction.length) ≠ 0 := by positivity
  rw [padded, ← List.append_assoc, digitsValue_zeros, magnitude, whole, Nat.cast_mul, Nat.cast_pow,
    Nat.cast_ofNat, mul_div_mul_right _ _ place]

theorem compare_div {a b : Nat} {unit : ℚ} (positive : 0 < unit) :
    compare ((a : ℚ) / unit) ((b : ℚ) / unit) = compare a b := by
  rcases Nat.lt_trichotomy a b with less | rfl | more
  · rw [compare_lt_iff_lt.mpr less, compare_lt_iff_lt]
    exact div_lt_div_of_pos_right (Nat.cast_lt.mpr less) positive
  · rw [compare_eq_iff_eq.mpr rfl, compare_eq_iff_eq.mpr rfl]
  · rw [compare_gt_iff_gt.mpr more, compare_gt_iff_gt]
    exact div_lt_div_of_pos_right (Nat.cast_lt.mpr more) positive

/-- An integer part without needless zeros in front. -/
structure LeadsVisibly (integer : List Char) : Prop where
  digits : IsDigits integer
  nonempty : integer ≠ []
  visible : 1 < integer.length → integer.head? ≠ some '0'

theorem LeadsVisibly.longer (shorter : LeadsVisibly integer) (h : LeadsVisibly integer')
    (less : integer.length < integer'.length) {back back' : List Char}
    (digits : IsDigits back) (same : back.length = back'.length) :
    digitsValue (integer ++ back) < digitsValue (integer' ++ back') := by
  have below := digitsValue_lt (isDigits_append.mpr ⟨shorter.digits, digits⟩)
  have several : 1 < integer'.length := by
    have := List.length_pos_iff.mpr shorter.nonempty
    omega
  obtain ⟨c, rest, rfl⟩ := List.exists_cons_of_ne_nil h.nonempty
  have first : c ≠ '0' := fun zero => h.visible several (congrArg some zero)
  have above := @le_digitsValue (rest ++ back') c (h.digits c List.mem_cons_self) first
  refine below.trans_le ((Nat.pow_le_pow_right (by decide) ?_).trans above)
  rw [List.length_append, List.length_append]
  rw [List.length_cons] at less
  omega

/-- Magnitudes are compared by the lengths of their integer parts, the integer parts and the
fractions with zeros behind them. -/
theorem compare_magnitude (leads : LeadsVisibly integer) (leads' : LeadsVisibly integer')
    (digits : IsDigits fraction) (digits' : IsDigits fraction')
    (fits : fraction.length ≤ length) (fits' : fraction'.length ≤ length) :
    compare (magnitude integer fraction) (magnitude integer' fraction') =
      ((compare integer.length integer'.length).then (compare integer integer')).then
        (compare (padded length fraction) (padded length fraction')) := by
  have same : (padded length fraction).length = (padded length fraction').length := by
    rw [length_padded fits, length_padded fits']
  rw [magnitude_padded fits, magnitude_padded fits', compare_div (by positivity)]
  rcases Nat.lt_trichotomy integer.length integer'.length with less | equal | more
  · rw [compare_lt_iff_lt.mpr less, compare_lt_iff_lt.mpr]
    · rfl
    · exact leads.longer leads' less (isDigits_padded digits) same
  · rw [compare_eq_iff_eq.mpr equal, ← compare_digitsValue, compare_append equal]
    · rfl
    · exact isDigits_append.mpr ⟨leads.digits, isDigits_padded digits⟩
    · exact isDigits_append.mpr ⟨leads'.digits, isDigits_padded digits'⟩
    · rw [List.length_append, List.length_append, equal, same]
  · rw [compare_gt_iff_gt.mpr more, compare_gt_iff_gt.mpr]
    · rfl
    · exact leads'.longer leads more (isDigits_padded digits') same.symm

end Magnitudes

/-! ## Canonical numerals -/

/-- A magnitude with its sign. -/
def signed (negative : Bool) (magnitude : ℚ) : ℚ :=
  if negative then -magnitude else magnitude

/-- A decimal without needless zeros and without a negative zero. -/
structure Decimal where
  negative : Bool
  integer : List Char
  fraction : List Char
  leads : LeadsVisibly integer
  digits : IsDigits fraction
  ends : fraction.getLast? ≠ some '0'
  unsigned_zero : negative = true → ¬ (integer = ['0'] ∧ fraction = [])

namespace Decimal

variable (a b : Decimal)

def magnitude : ℚ :=
  Library.magnitude a.integer a.fraction

def value : ℚ :=
  signed a.negative a.magnitude

def unsignedText : List Char :=
  a.integer ++ if a.fraction = [] then [] else '.' :: a.fraction

def text : List Char :=
  (if a.negative then ['-'] else []) ++ a.unsignedText

variable {a b}

theorem magnitude_nonneg : 0 ≤ a.magnitude := by
  unfold magnitude Library.magnitude
  positivity

theorem magnitude_pos (h : ¬ (a.integer = ['0'] ∧ a.fraction = [])) : 0 < a.magnitude := by
  have some_digit : 0 < digitsValue (a.integer ++ a.fraction) := by
    by_cases whole : a.fraction = []
    · obtain ⟨c, rest, shape⟩ := List.exists_cons_of_ne_nil a.leads.nonempty
      have visible : c ≠ '0' := by
        rintro rfl
        cases rest with
        | nil => exact h ⟨shape, whole⟩
        | cons d rest =>
            exact a.leads.visible (by rw [shape]; simp) (by rw [shape]; rfl)
      rw [shape, List.cons_append]
      have digit := a.leads.digits c (shape ▸ List.mem_cons_self)
      exact (Nat.pow_pos (by decide)).trans_le (le_digitsValue digit visible)
    · have shape := List.dropLast_append_getLast whole
      have visible : a.fraction.getLast whole ≠ '0' := by
        intro zero
        exact a.ends (by rw [List.getLast?_eq_some_getLast whole, zero])
      have digit := a.digits _ (List.getLast_mem whole)
      have last := @le_digitsValue [] _ digit visible
      rw [← shape, ← List.append_assoc, digitsValue_append]
      rw [List.length_nil, Nat.pow_zero] at last
      omega
  unfold magnitude Library.magnitude
  positivity

theorem compare_value : compare a.value b.value =
    match a.negative, b.negative with
    | true, false => .lt
    | false, true => .gt
    | false, false => compare a.magnitude b.magnitude
    | true, true => (compare a.magnitude b.magnitude).swap := by
  have visible : ∀ decimal : Decimal, decimal.negative = true → 0 < decimal.magnitude :=
    fun decimal negative => magnitude_pos (decimal.unsigned_zero negative)
  have first := visible a
  have second := visible b
  have zero := @magnitude_nonneg a
  have zero' := @magnitude_nonneg b
  unfold value signed
  cases sign : a.negative <;> cases sign' : b.negative
  · rfl
  · have positive := second sign'
    exact compare_gt_iff_gt.mpr (show -b.magnitude < a.magnitude by linarith)
  · have positive := first sign
    exact compare_lt_iff_lt.mpr (show -a.magnitude < b.magnitude by linarith)
  · simp only [if_true]
    rcases lt_trichotomy a.magnitude b.magnitude with less | equal | more
    · rw [compare_lt_iff_lt.mpr less]
      exact compare_gt_iff_gt.mpr (neg_lt_neg less)
    · rw [compare_eq_iff_eq.mpr equal]
      exact compare_eq_iff_eq.mpr (congrArg _ equal)
    · rw [compare_gt_iff_gt.mpr more]
      exact compare_lt_iff_lt.mpr (neg_lt_neg more)

theorem compare_magnitude : compare a.magnitude b.magnitude =
    ((compare a.integer.length b.integer.length).then (compare a.integer b.integer)).then
      (compare (padded (max a.fraction.length b.fraction.length) a.fraction)
        (padded (max a.fraction.length b.fraction.length) b.fraction)) :=
  Library.compare_magnitude a.leads b.leads a.digits b.digits (le_max_left _ _)
    (le_max_right _ _)

theorem rdropWhile_padded {fraction : List Char} (ends : fraction.getLast? ≠ some '0')
    (length : Nat) : (padded length fraction).rdropWhile (· == '0') = fraction := by
  have zeros : ∀ n, (fraction ++ List.replicate n '0').rdropWhile (· == '0') = fraction := by
    intro n
    induction n with
    | zero =>
        rw [List.replicate_zero, List.append_nil, List.rdropWhile_eq_self_iff]
        intro nonempty last
        exact ends (by rw [List.getLast?_eq_some_getLast nonempty, of_decide_eq_true last])
    | succ n ih =>
        rw [List.replicate_succ', ← List.append_assoc, List.rdropWhile_concat_pos _ _ _ rfl, ih]
  exact zeros _

theorem text_of_value (h : a.value = b.value) : a.text = b.text := by
  have equal := compare_eq_iff_eq.mpr h
  rw [compare_value] at equal
  have signs : a.negative = b.negative ∧ compare a.magnitude b.magnitude = .eq := by
    cases sign : a.negative <;> cases sign' : b.negative <;> rw [sign, sign'] at equal
    · exact ⟨rfl, equal⟩
    · cases equal
    · cases equal
    · exact ⟨rfl, Ordering.swap_eq_eq.mp equal⟩
  obtain ⟨negative, magnitudes⟩ := signs
  rw [compare_magnitude, Ordering.then_eq_eq, Ordering.then_eq_eq] at magnitudes
  obtain ⟨⟨-, integers⟩, fractions⟩ := magnitudes
  have integer : a.integer = b.integer := Std.compare_eq_iff_eq.mp integers
  have fraction : a.fraction = b.fraction := by
    have same := Std.compare_eq_iff_eq.mp fractions
    rw [← rdropWhile_padded a.ends, same, rdropWhile_padded b.ends]
  rw [text, text, unsignedText, unsignedText, negative, integer, fraction]

end Decimal

/-! ## Numerals -/

/-- A sign, of which it is known whether it is a minus. -/
def signText : Option Bool → List Char
  | some true => ['-']
  | some false => ['+']
  | none => []

/-- A decimal numeral with what the canonical one lacks: a plus sign, zeros in front of the
integer part and zeros at the end of the fraction. -/
structure Numeral where
  sign : Option Bool
  integer : List Char
  fraction : Option (List Char)
  nonempty : integer ≠ []
  integer_digits : IsDigits integer
  fraction_nonempty : fraction ≠ some []
  fraction_digits : IsDigits (fraction.getD [])

namespace Numeral

variable (numeral : Numeral)

def text : List Char :=
  signText numeral.sign ++ (numeral.integer ++ (numeral.fraction.map ('.' :: ·)).getD [])

def value : ℚ :=
  signed (numeral.sign == some true)
    (Library.magnitude numeral.integer (numeral.fraction.getD []))

/-- The integer part without zeros in front. -/
def trimmedInteger : List Char :=
  let rest := numeral.integer.dropWhile (· == '0')
  if rest = [] then ['0'] else rest

def trimmedFraction : List Char :=
  (numeral.fraction.getD []).rdropWhile (· == '0')

theorem trimmedInteger_leads : LeadsVisibly numeral.trimmedInteger := by
  unfold trimmedInteger
  dsimp only
  split
  next all_zero => exact ⟨isDigits_replicate 1, by decide, fun several => absurd several (by decide)⟩
  next some_digit =>
    refine ⟨?_, some_digit, ?_⟩
    · exact fun c mem => numeral.integer_digits c ((List.dropWhile_suffix _).subset mem)
    · intro _ zero
      have visible := List.head?_dropWhile_not (· == '0') numeral.integer
      rw [zero] at visible
      cases visible

theorem trimmedFraction_digits : IsDigits numeral.trimmedFraction :=
  fun c mem => numeral.fraction_digits c ((List.rdropWhile_prefix _ _).subset mem)

theorem trimmedFraction_ends : numeral.trimmedFraction.getLast? ≠ some '0' := by
  intro zero
  have nonempty : numeral.trimmedFraction ≠ [] := by
    intro empty
    rw [empty] at zero
    cases zero
  have visible := List.rdropWhile_last_not (· == '0') (numeral.fraction.getD []) nonempty
  rw [List.getLast?_eq_some_getLast nonempty] at zero
  exact visible (beq_iff_eq.mpr (Option.some.inj zero))

/-- The canonical numeral of the same rational. -/
def canonical : Decimal where
  negative := numeral.sign == some true &&
    !decide (numeral.trimmedInteger = ['0'] ∧ numeral.trimmedFraction = [])
  integer := numeral.trimmedInteger
  fraction := numeral.trimmedFraction
  leads := numeral.trimmedInteger_leads
  digits := numeral.trimmedFraction_digits
  ends := numeral.trimmedFraction_ends
  unsigned_zero := by
    intro negative
    exact of_decide_eq_false ((Bool.not_eq_true' _).mp (Bool.and_eq_true_iff.mp negative).2)

theorem digitsValue_trimmedInteger :
    digitsValue numeral.trimmedInteger = digitsValue numeral.integer := by
  have zeros : ∀ text, digitsValue (text.dropWhile (· == '0')) = digitsValue text := by
    intro text
    induction text with
    | nil => rfl
    | cons c rest ih =>
        by_cases zero : c = '0'
        · have value : digitsValue (c :: rest) = digitsValue rest := by
            rw [digitsValue_cons, zero]
            exact (congrArg (· + digitsValue rest) (Nat.zero_mul _)).trans (Nat.zero_add _)
          have drops : (c == '0') = true := beq_iff_eq.mpr zero
          rw [List.dropWhile_cons, if_pos drops, ih, value]
        · have keeps : ¬ (c == '0') = true := fun same => zero (beq_iff_eq.mp same)
          rw [List.dropWhile_cons, if_neg keeps]
  unfold trimmedInteger
  dsimp only
  split
  next all_zero =>
    rw [← zeros numeral.integer, all_zero]
    rfl
  next => exact zeros _

theorem padded_trimmedFraction :
    padded (numeral.fraction.getD []).length numeral.trimmedFraction =
      numeral.fraction.getD [] := by
  have whole := @List.rdropWhile_append_rtakeWhile _ (· == '0') (numeral.fraction.getD [])
  have zeros : (numeral.fraction.getD []).rtakeWhile (· == '0') =
      List.replicate ((numeral.fraction.getD []).rtakeWhile (· == '0')).length '0' := by
    refine List.eq_replicate_iff.mpr ⟨rfl, fun c mem => ?_⟩
    have zero : (c == '0') = true := @List.mem_rtakeWhile_imp _ (· == '0') _ _ mem
    exact beq_iff_eq.mp zero
  have lengths := congrArg List.length whole
  rw [List.length_append] at lengths
  have rest : (numeral.fraction.getD []).length - numeral.trimmedFraction.length =
      ((numeral.fraction.getD []).rtakeWhile (· == '0')).length := by
    unfold trimmedFraction
    omega
  rw [padded, rest, ← zeros]
  exact whole

theorem magnitude_trimmed : Library.magnitude numeral.trimmedInteger numeral.trimmedFraction =
    Library.magnitude numeral.integer (numeral.fraction.getD []) := by
  have shorter : numeral.trimmedFraction.length ≤ (numeral.fraction.getD []).length :=
    (List.rdropWhile_prefix _ _).length_le
  rw [magnitude_padded shorter, padded_trimmedFraction, Library.magnitude, digitsValue_append,
    digitsValue_append, digitsValue_trimmedInteger]

theorem canonical_value : numeral.canonical.value = numeral.value := by
  show signed _ (Library.magnitude numeral.trimmedInteger numeral.trimmedFraction) = _
  rw [magnitude_trimmed]
  unfold value canonical
  by_cases zero : numeral.trimmedInteger = ['0'] ∧ numeral.trimmedFraction = []
  · have nothing : Library.magnitude numeral.integer (numeral.fraction.getD []) = 0 := by
      rw [← magnitude_trimmed, zero.1, zero.2]
      have digit : digitsValue ['0'] = 0 := by
        rw [digitsValue_cons]
        rfl
      rw [Library.magnitude, List.append_nil, digit, Nat.cast_zero, zero_div]
    rw [nothing]
    simp [signed]
  · simp [zero]

end Numeral

end DocumentSummarizer.Library
