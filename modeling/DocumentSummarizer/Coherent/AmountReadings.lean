import DocumentSummarizer.Coherent.ContractAmounts

/-! # Amounts and their values

Two numerals are read as one amount just when they denote one number, as long as no more
than two digits are behind a decimal point: three digits are taken for thousands.
-/

namespace DocumentSummarizer.Coherent

open Library Pipeline

/-! ## Groups with separators -/

/-- Groups of digits, each behind its separator. -/
def separated (first : List Char) (rest : List (Char × List Char)) : List Char :=
  first ++ rest.flatMap fun group => group.1 :: group.2

/-- The groups are digits, some in every group, and separators stand between them. -/
structure Separated (first : List Char) (rest : List (Char × List Char)) : Prop where
  nonempty : first ≠ []
  digits : IsDigits first
  separators : ∀ group ∈ rest, isSeparator group.1 = true
  filled : ∀ group ∈ rest, group.2 ≠ [] ∧ IsDigits group.2

section Groups

variable {first front back : List Char} {rest : List (Char × List Char)} {c : Char}

theorem digit_not_separator (digit : c.isDigit = true) : isSeparator c = false := by
  rw [isSeparator, Bool.or_eq_false_iff, beq_eq_false_iff_ne, beq_eq_false_iff_ne]
  constructor
  · rintro rfl
    cases digit
  · rintro rfl
    cases digit

theorem amountChar_visible (amount : amountChar c = true) : isWhitespace c = false := by
  simp only [amountChar, isSeparator, Bool.or_eq_true, beq_iff_eq] at amount
  obtain digit | rfl | rfl := amount
  · have bounds := digit_bounds digit
    simp [isWhitespace]
    omega
  · decide
  · decide

theorem trim_visible (visible : ∀ c ∈ front, isWhitespace c = false) : trim front = front := by
  rw [trim]
  have start : front.dropWhile isWhitespace = front := by
    cases front with
    | nil => rfl
    | cons c rest => exact List.dropWhile_cons_of_neg (by simp [visible c List.mem_cons_self])
  rw [start, List.rdropWhile_eq_self_iff]
  intro nonempty last
  rw [visible _ (List.getLast_mem nonempty)] at last
  cases last

theorem splitWhere_unseparated {separates : Char → Bool}
    (plain : ∀ c ∈ front, separates c = false) : splitWhere separates front = [front] := by
  induction front with
  | nil => rfl
  | cons c rest ih =>
      obtain ⟨own, others⟩ := List.forall_mem_cons.mp plain
      simp [splitWhere, own, ih others]

theorem splitWhere_separated (groups : Separated first rest) :
    splitWhere isSeparator (separated first rest) = first :: rest.map (·.2) := by
  have plain : ∀ group, IsDigits group → splitWhere isSeparator group = [group] :=
    fun group digits => splitWhere_unseparated fun c mem => digit_not_separator (digits c mem)
  obtain ⟨-, digits, separators, filled⟩ := groups
  induction rest generalizing first with
  | nil => simpa [separated] using plain first digits
  | cons group rest ih =>
      obtain ⟨own, others⟩ := List.forall_mem_cons.mp separators
      obtain ⟨⟨-, inside⟩, filled⟩ := List.forall_mem_cons.mp filled
      have later := ih inside others filled
      have shape : separated first (group :: rest) =
          first ++ group.1 :: separated group.2 rest := by
        simp [separated]
      rw [shape, splitWhere_append own, plain first digits, later]
      rfl

theorem rtakeWhile_behind (separator : isSeparator c = true) (digits : IsDigits back) :
    (front ++ c :: back).rtakeWhile (!isSeparator ·) = back := by
  have plain : ∀ d ∈ back.reverse, (!isSeparator d) = true := by
    intro d mem
    rw [digit_not_separator (digits d (List.mem_reverse.mp mem))]
    rfl
  rw [List.rtakeWhile, List.reverse_append, List.reverse_cons, List.append_assoc,
    List.takeWhile_append_of_pos plain, List.singleton_append,
    List.takeWhile_cons_of_neg (by simp [separator]), List.append_nil, List.reverse_reverse]

theorem separated_concat (first : List Char) (rest : List (Char × List Char))
    (group : Char × List Char) :
    separated first (rest ++ [group]) = separated first rest ++ group.1 :: group.2 := by
  simp [separated]

theorem separated_amount (groups : Separated first rest) :
    ∀ c ∈ separated first rest, amountChar c = true := by
  intro c mem
  simp only [separated, List.mem_append, List.mem_flatMap, List.mem_cons] at mem
  obtain digit | ⟨group, inside, rfl | digit⟩ := mem
  · simp [amountChar, groups.digits c digit]
  · simp [amountChar, groups.separators group inside]
  · simp [amountChar, (groups.filled group inside).2 c digit]

theorem separated_ends (groups : Separated first rest) :
    ∃ front c, separated first rest = front ++ [c] ∧ c.isDigit = true := by
  obtain rfl | ⟨rest, group, rfl⟩ := rest.eq_nil_or_concat
  · refine ⟨first.dropLast, first.getLast groups.nonempty, ?_,
      groups.digits _ (List.getLast_mem groups.nonempty)⟩
    simpa [separated] using (List.dropLast_append_getLast groups.nonempty).symm
  · obtain ⟨filled, digits⟩ := groups.filled group (by simp)
    refine ⟨separated first rest ++ group.1 :: group.2.dropLast, group.2.getLast filled, ?_,
      digits _ (List.getLast_mem filled)⟩
    rw [List.concat_eq_append, separated_concat, List.append_assoc, List.cons_append,
      List.dropLast_append_getLast]

/-- Groups are read by their last separator; separators behind them do not matter. -/
theorem canonicalContractNumber_separated (groups : Separated first rest) {trailing : List Char}
    (separators : ∀ c ∈ trailing, isSeparator c = true) :
    canonicalContractNumber (separated first rest ++ trailing) =
      canonicalParts (splitDecimal (separated first rest)) := by
  have visible : ∀ c ∈ separated first rest ++ trailing, isWhitespace c = false := by
    intro c mem
    refine amountChar_visible ?_
    obtain inside | behind := List.mem_append.mp mem
    · exact separated_amount groups c inside
    · simp [amountChar, separators c behind]
  have value : (separated first rest ++ trailing).rdropWhile isSeparator =
      separated first rest := by
    obtain ⟨front, c, shape, digit⟩ := separated_ends groups
    have kept : (separated first rest).rdropWhile isSeparator = separated first rest := by
      rw [shape, List.rdropWhile_concat_neg _ _ _ (by simp [digit_not_separator digit])]
    clear visible
    induction trailing using List.reverseRecOn with
    | nil => rw [List.append_nil, kept]
    | append_singleton trailing d ih =>
        rw [← List.append_assoc, List.rdropWhile_concat_pos _ _ _ (separators d (by simp))]
        exact ih fun c mem => separators c (List.mem_append_left _ mem)
  obtain ⟨front, c, shape, digit⟩ := separated_ends groups
  have readable : ¬ (separated first rest = [] ∨ (separated first rest).any Char.isDigit = false ∨
      (separated first rest).any (fun c => !c.isDigit && !isSeparator c) = true) := by
    rw [not_or, not_or]
    refine ⟨by simp [shape], by simp [shape, digit], ?_⟩
    rw [Bool.not_eq_true, List.any_eq_false]
    intro d mem
    have amount := separated_amount groups d mem
    simp only [amountChar, Bool.or_eq_true] at amount
    obtain digit | separator := amount
    · simp [digit]
    · simp [separator]
  simp only [canonicalContractNumber, trim_visible visible, value, if_neg readable]

theorem splitDecimal_plain (digits : IsDigits first) : splitDecimal first = (first, []) := by
  have none : first.any isSeparator = false := by
    rw [List.any_eq_false]
    intro c mem
    simp [digit_not_separator (digits c mem)]
  simp [splitDecimal, none]

theorem splitDecimal_concat (separator : isSeparator c = true) (digits : IsDigits back) :
    splitDecimal (front ++ c :: back) =
      if 1 ≤ back.length ∧ back.length ≤ 2 then (front, back) else (front ++ c :: back, []) := by
  have some : (front ++ c :: back).any isSeparator = true := by simp [separator]
  simp only [splitDecimal, rtakeWhile_behind separator digits, some, true_and]
  split
  · have before : (front ++ c :: back).length - back.length - 1 = front.length := by
      simp only [List.length_append, List.length_cons]
      omega
    rw [before, List.take_left]
  · rfl

end Groups

/-! ## Numerals -/

/-- A numeral of a contract: an integer part, plain or in groups of thousands behind commas, and
perhaps a fraction behind a point. -/
structure AmountNumeral where
  first : List Char
  groups : List (List Char)
  fraction : Option (List Char)
  nonempty : first ≠ []
  digits : IsDigits first
  short : groups ≠ [] → first.length ≤ 3
  thousands : ∀ group ∈ groups, thousandGroup group = true
  fraction_digits : IsDigits (fraction.getD [])

/-- The integer without zeros in front, and the fraction without zeros at its end. -/
def canonicalText (integer fraction : List Char) : List Char :=
  let digits := integer.dropWhile (· == '0')
  let whole := if digits = [] then ['0'] else digits
  let rest := fraction.rdropWhile (· == '0')
  if rest = [] then whole else whole ++ '.' :: rest

namespace AmountNumeral

variable (amount : AmountNumeral)

def integer : List Char :=
  amount.first ++ amount.groups.flatten

def fractionDigits : List Char :=
  amount.fraction.getD []

def text : List Char :=
  separated amount.first (amount.groups.map fun group => (',', group)) ++
    (amount.fraction.map ('.' :: ·)).getD []

/-- The number that the numeral denotes. -/
def value : ℚ :=
  magnitude amount.integer amount.fractionDigits

/-- The canonical form of the number. -/
def canonical : List Char :=
  canonicalText amount.integer amount.fractionDigits

theorem fractionDigits_digits : IsDigits amount.fractionDigits :=
  amount.fraction_digits

theorem integer_digits : IsDigits amount.integer := by
  intro c mem
  obtain first | later := List.mem_append.mp mem
  · exact amount.digits c first
  · obtain ⟨group, inside, among⟩ := List.mem_flatten.mp later
    have thousand := amount.thousands group inside
    simp only [thousandGroup, Bool.and_eq_true, List.all_eq_true] at thousand
    exact thousand.2 c among

def numeral : Numeral where
  sign := none
  integer := amount.integer
  fraction := if amount.fractionDigits = [] then none else some amount.fractionDigits
  nonempty := List.append_ne_nil_of_left_ne_nil amount.nonempty _
  integer_digits := amount.integer_digits
  fraction_nonempty := by
    split
    · simp
    · next filled => simpa using filled
  fraction_digits := by
    split
    · exact fun _ mem => absurd mem List.not_mem_nil
    · exact amount.fraction_digits

theorem numeral_fraction : amount.numeral.fraction.getD [] = amount.fractionDigits := by
  unfold numeral
  split
  · next empty => exact empty.symm
  · rfl

theorem numeral_value : amount.numeral.value = amount.value := by
  rw [Numeral.value, numeral_fraction]
  rfl

theorem numeral_canonical : amount.numeral.canonical.text = amount.canonical := by
  have fraction : amount.numeral.canonical.fraction =
      amount.fractionDigits.rdropWhile (· == '0') := by
    rw [← numeral_fraction]
    rfl
  have integer : amount.numeral.canonical.integer =
      if amount.integer.dropWhile (· == '0') = [] then ['0']
      else amount.integer.dropWhile (· == '0') := rfl
  have positive : amount.numeral.canonical.negative = false := rfl
  rw [Decimal.text, Decimal.unsignedText, positive, fraction, integer, if_neg Bool.false_ne_true,
    List.nil_append, canonical, canonicalText]
  by_cases zeros : amount.fractionDigits.rdropWhile (· == '0') = []
  · rw [if_pos zeros, if_pos zeros, List.append_nil]
  · rw [if_neg zeros, if_neg zeros]

end AmountNumeral

section Decimals

variable {a b : Decimal}

theorem parts_of_unsignedText (same : a.unsignedText = b.unsignedText) :
    a.integer = b.integer ∧ a.fraction = b.fraction := by
  have digits : ∀ decimal : Decimal,
      decimal.unsignedText.takeWhile Char.isDigit = decimal.integer := by
    intro decimal
    rw [Decimal.unsignedText, List.takeWhile_append_of_pos decimal.leads.digits]
    split
    · simp
    · rw [List.takeWhile_cons_of_neg (by decide), List.append_nil]
  have integers : a.integer = b.integer := by rw [← digits a, same, digits b]
  refine ⟨integers, ?_⟩
  rw [Decimal.unsignedText, Decimal.unsignedText, integers] at same
  have tails := List.append_cancel_left same
  split at tails
  · next empty =>
      split at tails
      · next empty' => rw [empty, empty']
      · cases tails
  · split at tails
    · cases tails
    · exact (List.cons.inj tails).2

theorem value_of_text (positive : a.negative = false) (positive' : b.negative = false)
    (same : a.text = b.text) : a.value = b.value := by
  rw [Decimal.text, Decimal.text, positive, positive'] at same
  obtain ⟨integers, fractions⟩ := parts_of_unsignedText same
  simp only [Decimal.value, Decimal.magnitude, positive, positive', integers, fractions]

end Decimals

theorem canonical_eq_iff (a b : AmountNumeral) : a.canonical = b.canonical ↔ a.value = b.value := by
  rw [← a.numeral_canonical, ← b.numeral_canonical, ← a.numeral_value, ← b.numeral_value,
    ← Numeral.canonical_value, ← Numeral.canonical_value]
  exact ⟨value_of_text rfl rfl, Decimal.text_of_value⟩

/-! ## Readings -/

section Readings

variable {first fraction : List Char} {rest : List (Char × List Char)}

theorem canonicalParts_separated (groups : Separated first rest) (digits : IsDigits fraction) :
    canonicalParts (separated first rest, fraction) =
      if integerGroups (first :: rest.map (·.2)) then
        some (canonicalText (first ++ (rest.map (·.2)).flatten) fraction)
      else none := by
  have readable : fraction.all Char.isDigit = true := List.all_eq_true.mpr digits
  simp only [canonicalParts, splitWhere_separated groups, readable, Bool.true_eq_false, or_false]
  cases ordered : integerGroups (first :: rest.map (·.2)) with
  | false => rfl
  | true => rfl

theorem point : isSeparator '.' = true := by
  decide

variable (amount : AmountNumeral)

namespace AmountNumeral

/-- The groups of the integer part, each behind its comma. -/
def commaGroups : List (Char × List Char) :=
  amount.groups.map fun group => (',', group)

theorem commaGroups_map : amount.commaGroups.map (·.2) = amount.groups := by
  simp [commaGroups, Function.comp_def]

theorem group_digits {group : List Char} (mem : group ∈ amount.groups) :
    group ≠ [] ∧ group.length = 3 ∧ IsDigits group := by
  have thousand := amount.thousands group mem
  simp only [thousandGroup, Bool.and_eq_true, beq_iff_eq, List.all_eq_true] at thousand
  refine ⟨?_, thousand⟩
  rintro rfl
  cases thousand.1

theorem commaGroups_separated : Separated amount.first amount.commaGroups where
  nonempty := amount.nonempty
  digits := amount.digits
  separators := by simp [commaGroups, isSeparator]
  filled := by
    intro group mem
    obtain ⟨digits, inside, rfl⟩ := List.mem_map.mp mem
    have group := amount.group_digits inside
    exact ⟨group.1, group.2.2⟩

theorem integerGroups_comma : integerGroups (amount.first :: amount.groups) = true := by
  have digits : amount.first.all Char.isDigit = true := List.all_eq_true.mpr amount.digits
  have thousands : amount.groups.all thousandGroup = true := List.all_eq_true.mpr amount.thousands
  have filled : amount.first.isEmpty = false := List.isEmpty_eq_false_iff.mpr amount.nonempty
  by_cases plain : amount.groups = []
  · simp [integerGroups, digits, filled, plain]
  · simp [integerGroups, digits, filled, thousands, amount.short plain]

theorem text_fraction (filled : amount.fractionDigits ≠ []) :
    amount.text = separated amount.first (amount.commaGroups ++ [('.', amount.fractionDigits)]) ∧
      Separated amount.first (amount.commaGroups ++ [('.', amount.fractionDigits)]) := by
  obtain ⟨nonempty, digits, separators, groups⟩ := amount.commaGroups_separated
  constructor
  · rw [separated_concat]
    cases written : amount.fraction with
    | none => simp [fractionDigits, written] at filled
    | some fraction => simp [text, commaGroups, fractionDigits, written]
  · refine ⟨nonempty, digits, ?_, ?_⟩
    · simpa [or_imp, forall_and, isSeparator] using separators
    · intro group mem
      obtain mem | mem := List.mem_append.mp mem
      · exact groups group mem
      · rw [List.mem_singleton.mp mem]
        exact ⟨filled, amount.fractionDigits_digits⟩

theorem text_whole (none : amount.fractionDigits = []) :
    ∃ trailing, amount.text = separated amount.first amount.commaGroups ++ trailing ∧
      ∀ c ∈ trailing, isSeparator c = true := by
  cases written : amount.fraction with
  | none => exact ⟨[], by simp [text, commaGroups, written], by simp⟩
  | some fraction =>
      obtain rfl : fraction = [] := by simpa [fractionDigits, written] using none
      exact ⟨['.'], by simp [text, commaGroups, written], by simp [isSeparator]⟩

/-- The digits behind commas are no fraction. -/
theorem splitDecimal_comma : splitDecimal (separated amount.first amount.commaGroups) =
    (separated amount.first amount.commaGroups, []) := by
  obtain plain | ⟨groups, last, shape⟩ := amount.groups.eq_nil_or_concat
  · have first : separated amount.first amount.commaGroups = amount.first := by
      simp [commaGroups, plain, separated]
    rw [first, splitDecimal_plain amount.digits]
  · have group := amount.group_digits (show last ∈ amount.groups by simp [shape])
    have concat : amount.commaGroups = (groups.map fun group => (',', group)) ++ [(',', last)] := by
      simp [commaGroups, shape]
    rw [concat, separated_concat, splitDecimal_concat rfl group.2.2, if_neg (by omega)]

/-- Up to two digits behind a point are read as a fraction. -/
theorem reads (few : amount.fractionDigits.length ≤ 2) :
    canonicalContractNumber amount.text = some amount.canonical := by
  have groups := amount.commaGroups_separated
  have whole : canonicalParts (separated amount.first amount.commaGroups, amount.fractionDigits) =
      some amount.canonical := by
    rw [canonicalParts_separated groups amount.fractionDigits_digits, commaGroups_map,
      if_pos amount.integerGroups_comma]
    rfl
  by_cases none : amount.fractionDigits = []
  · obtain ⟨trailing, shape, separators⟩ := amount.text_whole none
    rw [shape, canonicalContractNumber_separated groups separators, splitDecimal_comma, ← none,
      whole]
  · obtain ⟨shape, separated⟩ := amount.text_fraction none
    have read := @canonicalContractNumber_separated _ _ separated [] (by simp)
    rw [List.append_nil, separated_concat, splitDecimal_concat point amount.fractionDigits_digits,
      if_pos ⟨List.length_pos_iff.mpr none, few⟩, whole] at read
    rw [shape, separated_concat, read]

/-- Three digits behind a point are read as thousands, more than three are not read. -/
theorem reads_long (many : 3 ≤ amount.fractionDigits.length) :
    canonicalContractNumber amount.text =
      if amount.fractionDigits.length = 3 ∧ amount.first.length ≤ 3 then
        some (canonicalText (amount.integer ++ amount.fractionDigits) [])
      else none := by
  have filled : amount.fractionDigits ≠ [] := by
    intro none
    rw [none] at many
    exact absurd many (by decide)
  obtain ⟨shape, separated⟩ := amount.text_fraction filled
  have read := @canonicalContractNumber_separated _ _ separated [] (by simp)
  have names : (amount.commaGroups ++ [('.', amount.fractionDigits)]).map (·.2) =
      amount.groups ++ [amount.fractionDigits] := by
    rw [List.map_append, commaGroups_map]
    rfl
  have digits : amount.first.all Char.isDigit = true := List.all_eq_true.mpr amount.digits
  have digits' : amount.fractionDigits.all Char.isDigit = true :=
    List.all_eq_true.mpr amount.fractionDigits_digits
  have thousands : amount.groups.all thousandGroup = true := List.all_eq_true.mpr amount.thousands
  have start : amount.first.isEmpty = false := List.isEmpty_eq_false_iff.mpr amount.nonempty
  rw [List.append_nil, separated_concat, splitDecimal_concat point amount.fractionDigits_digits,
    if_neg (by omega), ← separated_concat, canonicalParts_separated separated (by simp [IsDigits]),
    names] at read
  rw [shape, read]
  have ordered : integerGroups (amount.first :: (amount.groups ++ [amount.fractionDigits])) =
      decide (amount.fractionDigits.length = 3 ∧ amount.first.length ≤ 3) := by
    have last : thousandGroup amount.fractionDigits =
        decide (amount.fractionDigits.length = 3) := by
      rw [thousandGroup, digits', Bool.and_true]
      rfl
    simp [integerGroups, start, digits, last, thousands, Bool.and_comm]
  simp [ordered, integer, List.append_assoc]

end AmountNumeral

end Readings

/-! ## Terms -/

section Terms

variable {tables : WordTables} {text : List Char} {terms : List ContractMaterialTerm}

theorem mem_sortedTerms {term : ContractMaterialTerm} {terms : List ContractMaterialTerm} :
    term ∈ sortedTerms terms ↔ term ∈ terms := by
  rw [sortedTerms, List.mem_insertionSort, List.mem_dedup]

theorem mapM_mem {α β : Type} {read : α → Reading β} {items : List α} {results : List β}
    (mapped : items.mapM read = .ok results) {a : α} (mem : a ∈ items) {b : β}
    (own : read a = .ok b) : b ∈ results := by
  induction items generalizing results with
  | nil => exact absurd mem List.not_mem_nil
  | cons first rest ih =>
      rw [List.mapM_cons] at mapped
      cases head : read first with
      | error unread =>
          rw [head] at mapped
          cases mapped
      | ok value =>
          cases tail : rest.mapM read with
          | error unread =>
              rw [head, tail] at mapped
              cases mapped
          | ok values =>
              rw [head, tail] at mapped
              cases mapped
              obtain rfl | later := List.mem_cons.mp mem
              · obtain rfl := Except.ok.inj (head.symm.trans own)
                exact List.mem_cons_self
              · exact List.mem_cons_of_mem _ (ih tail later)

/-- What the terms of a text are put together from. -/
theorem contractMaterialTerms_parts (read : contractMaterialTerms tables text = .ok terms) :
    ∃ percentages dates slices spelled, percentageAmounts tables text = .ok percentages ∧
      materialSlices (contractMaterialWords tables text) = .ok slices ∧
      slices.mapM canonicalContractWords = .ok spelled ∧
      terms = sortedTerms (currencyAmounts text ++ percentages ++
        (dates ++ spelled).map .words) := by
  unfold contractMaterialTerms at read
  cases percentages : percentageAmounts tables text with
  | error unread =>
      rw [percentages] at read
      cases read
  | ok amounts =>
      cases dates : (numericContractDateWords text).mapM canonicalContractWords with
      | error unread =>
          rw [percentages, dates] at read
          cases read
      | ok days =>
          cases slices : materialSlices (contractMaterialWords tables text) with
          | error unread =>
              rw [percentages, dates, slices] at read
              cases read
          | ok parts =>
              cases spelled : parts.mapM canonicalContractWords with
              | error unread =>
                  rw [percentages, dates, slices] at read
                  simp only [bind, Except.bind, spelled] at read
                  cases read
              | ok words =>
                  rw [percentages, dates, slices] at read
                  simp only [bind, Except.bind, spelled] at read
                  cases read
                  exact ⟨amounts, days, parts, words, rfl, rfl, spelled, rfl⟩

end Terms

namespace AmountNumeral

variable (amount : AmountNumeral)

theorem text_starts : ∃ c rest, amount.text = c :: rest ∧ c.isDigit = true := by
  obtain ⟨c, rest, shape⟩ := List.exists_cons_of_ne_nil amount.nonempty
  have digit := amount.digits c (shape ▸ List.mem_cons_self)
  refine ⟨c, amount.text.tail, ?_, digit⟩
  rw [text, separated, shape]
  rfl

theorem text_unqualified : isQualifier amount.text = false := by
  obtain ⟨c, rest, shape, digit⟩ := amount.text_starts
  rw [shape, isQualifier, Bool.or_eq_false_iff, beq_eq_false_iff_ne, beq_eq_false_iff_ne]
  constructor
  · intro same
    have first : c = 'c' := by simpa using congrArg List.head? same
    rw [first] at digit
    cases digit
  · intro same
    have first : c = 'b' := by simpa using congrArg List.head? same
    rw [first] at digit
    cases digit

variable {amount}

theorem counts (few : amount.fractionDigits.length ≤ 2) (rest : List (List Char)) :
    contractDurationCountPrefix (amount.text :: rest) = .ok (amount.canonical, 1) := by
  simp [contractDurationCountPrefix, amount.reads few]

theorem unit_unparsed {unit name : List Char} (named : unitName unit = some name) (limit : Nat) :
    parseBounded limit unit = none := by
  obtain ⟨plural, found, -⟩ := Option.map_eq_some_iff.mp named
  obtain ⟨front, back, split, -⟩ := List.lookup_eq_some_iff.mp found
  have letters : ∀ pair ∈ unitNames, (withoutPlus pair.1.toList).all Char.isDigit = false := by
    decide
  have own := letters (String.ofList unit, plural) (by simp [split])
  rw [String.toList_ofList] at own
  simp [parseBounded, own]

/-- What stands in front of the unit of a duration besides its count. -/
def Qualifier (qualifier : List (List Char)) : Prop :=
  qualifier = [] ∨ ∃ word, qualifier = [word] ∧ isQualifier word = true

theorem qualifier_unparsed {word : List Char} (qualifies : isQualifier word = true) :
    parseBounded 255 word = none := by
  simp only [isQualifier, Bool.or_eq_true, beq_iff_eq] at qualifies
  obtain rfl | rfl := qualifies <;> decide

theorem canonicalDate_duration {first word unit name : List Char}
    (qualifies : isQualifier word = true) (named : unitName unit = some name)
    (year month day : Nat) :
    canonicalDate [first, word, unit] ≠ some (some year, some month, some day) := by
  have unparsed := unit_unparsed named 65535
  simp only [canonicalDate, qualifier_unparsed qualifies, unparsed]
  split
  · simp
  · split
    · split
      · simp
      · simp
      · split <;> simp_all
    · simp

/-- The words of a duration: its count in canonical form, and its unit in the plural. -/
theorem canonicalContractWords_duration (few : amount.fractionDigits.length ≤ 2)
    {qualifier : List (List Char)} (qualifies : Qualifier qualifier) {unit name : List Char}
    (named : unitName unit = some name) :
    canonicalContractWords (amount.text :: (qualifier ++ [unit])) =
      .ok (amount.canonical :: (qualifier ++ [name])) := by
  obtain rfl | ⟨word, rfl, qualifies⟩ := qualifies
  · have plain := amount.text_unqualified
    simp [canonicalContractWords, canonicalDate, named, canonicalDuration, plain, counts few]
  · have duration : canonicalDuration [amount.text, word, unit] name =
        .ok [amount.canonical, word, name] := by
      simp [canonicalDuration, qualifies, counts few]
    simp only [List.cons_append, List.nil_append, canonicalContractWords]
    split
    · next year month day date =>
        exact absurd date (canonicalDate_duration qualifies named year month day)
    · simp [named, duration]

end AmountNumeral

theorem mem_dropLast_tails {α : Type} {tail : List α} :
    ∀ {list : List α}, tail ∈ list.tails → tail ≠ [] → tail ∈ list.tails.dropLast
  | [], mem, nonempty => by
      exact absurd (List.mem_singleton.mp mem) nonempty
  | first :: list, mem, nonempty => by
      have more : list.tails ≠ [] := by
        cases list <;> simp
      rw [List.tails_cons, List.dropLast_cons_of_ne_nil more]
      simp only [List.tails_cons, List.mem_cons] at mem
      obtain rfl | mem := mem
      · exact List.mem_cons_self
      · exact List.mem_cons_of_mem _ (mem_dropLast_tails mem nonempty)

/-- The terms of a text name the amounts in it by their canonical forms. -/
structure NamesAmount (tables : WordTables) (text : List Char)
    (terms : List ContractMaterialTerm) (amount : AmountNumeral) : Prop where
  currency : ∀ code, (code, amount.text) ∈ currencyRuns none text →
    .currency code amount.canonical ∈ terms
  percentage : ∀ rest, amount.text :: "percent".toList :: rest ∈
    (contractMaterialWords tables (spellPercent tables [] text)).tails →
      .percentage amount.canonical ∈ terms
  duration : ∀ slices, materialSlices (contractMaterialWords tables text) = .ok slices →
    ∀ qualifier unit name, AmountNumeral.Qualifier qualifier → unitName unit = some name →
      amount.text :: (qualifier ++ [unit]) ∈ slices →
        .words (amount.canonical :: (qualifier ++ [name])) ∈ terms

theorem contractMaterialTerms_names {tables : WordTables} {text : List Char}
    {terms : List ContractMaterialTerm} (read : contractMaterialTerms tables text = .ok terms)
    {amount : AmountNumeral} (few : amount.fractionDigits.length ≤ 2) :
    NamesAmount tables text terms amount := by
  obtain ⟨percentages, dates, slices, spelled, percents, sliced, words, rfl⟩ :=
    contractMaterialTerms_parts read
  constructor
  · intro code mem
    rw [mem_sortedTerms]
    refine List.mem_append_left _ (List.mem_append_left _ (List.mem_filterMap.mpr ⟨_, mem, ?_⟩))
    simp [currencyTerm, amount.reads few]
  · intro rest mem
    rw [mem_sortedTerms]
    refine List.mem_append_left _ (List.mem_append_right _ ?_)
    unfold percentageAmounts at percents
    cases listed :
        (contractMaterialWords tables (spellPercent tables [] text)).tails.dropLast.mapM
          percentageAt with
    | error unread =>
        simp only [bind, Except.bind, listed] at percents
        cases percents
    | ok amounts =>
        simp only [bind, Except.bind, listed] at percents
        cases percents
        have among := mem_dropLast_tails mem (List.cons_ne_nil _ _)
        have own : percentageAt (amount.text :: "percent".toList :: rest) =
            .ok (some amount.canonical) := by
          simp [percentageAt, AmountNumeral.counts few]
        exact List.mem_filterMap.mpr ⟨_, mapM_mem listed among own, rfl⟩
  · intro slices' sliced' qualifier unit name qualifies named mem
    obtain rfl := Except.ok.inj (sliced.symm.trans sliced')
    rw [mem_sortedTerms]
    refine List.mem_append_right _ (List.mem_map.mpr ⟨_, List.mem_append_right _ ?_, rfl⟩)
    exact mapM_mem words mem (AmountNumeral.canonicalContractWords_duration few qualifies named)

namespace AmountNumeral

/-- `1,250.50` -/
def grouped : AmountNumeral where
  first := ['1']
  groups := [['2', '5', '0']]
  fraction := some ['5', '0']
  nonempty := by simp
  digits := List.all_eq_true.mp (by decide)
  short := by simp
  thousands := by decide
  fraction_digits := List.all_eq_true.mp (by decide)

/-- `1250.5` -/
def plain : AmountNumeral where
  first := ['1', '2', '5', '0']
  groups := []
  fraction := some ['5']
  nonempty := by simp
  digits := List.all_eq_true.mp (by decide)
  short := by simp
  thousands := by decide
  fraction_digits := List.all_eq_true.mp (by decide)

/-- `1,234` -/
def commaThousand : AmountNumeral where
  first := ['1']
  groups := [['2', '3', '4']]
  fraction := none
  nonempty := by simp
  digits := List.all_eq_true.mp (by decide)
  short := by simp
  thousands := by decide
  fraction_digits := List.all_eq_true.mp (by decide)

/-- `1.234` -/
def pointThousand : AmountNumeral where
  first := ['1']
  groups := []
  fraction := some ['2', '3', '4']
  nonempty := by simp
  digits := List.all_eq_true.mp (by decide)
  short := by simp
  thousands := by decide
  fraction_digits := List.all_eq_true.mp (by decide)

end AmountNumeral

end DocumentSummarizer.Coherent
