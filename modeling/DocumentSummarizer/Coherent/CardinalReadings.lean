import DocumentSummarizer.Coherent.ContractCardinals

/-! # What a cardinal's reading denotes

A reading adds up to the number its tokens denote. It leaves the range of `u64` in one
place only, where hundreds are added to a numeral of digits, and the tokens in front of
that place decide whether a reading comes there.
-/

namespace DocumentSummarizer.Coherent

open Library

/-- Complete groups in front of falling scale words: their sum and the last scale. -/
inductive ScaledGroups : List String → Nat → Nat → Prop
  | none : ScaledGroups [] 0 (2 ^ 64 - 1)
  | group : ScaledGroups front total previous → CardinalGroup group n →
      contractScale word = some scale → scale < previous → total + n * scale < 2 ^ 64 →
      ScaledGroups (front ++ (group ++ [word])) (total + n * scale) scale

/-- Behind complete groups, and perhaps an `and`, the tokens go on with hundreds in front
of too large a numeral. -/
def ReadsIntoOverflow (values : List String) : Prop :=
  ∃ front total previous joined group rest, values = front ++ (joined ++ (group ++ rest)) ∧
    ScaledGroups front total previous ∧ (joined = [] ∨ joined = ["and"] ∧ front ≠ []) ∧
    HugeHundreds group

/-- No operation leaves its range, and a number that is read is what its tokens denote. -/
structure CardinalRead (values : List String) : Prop where
  in_range : contractCardinalPrefix values ≠ .error .overflow
  denotes : contractCardinalPrefix values = .ok (n, k) →
    k ≤ values.length ∧ denotation (values.take k) = n
  refuses : 2 ^ 64 ≤ denotation (values.take k) →
    ∀ n, contractCardinalValue (values.take k) ≠ .ok n

/-! ## Tokens of groups -/

section Groups

variable {group joined front rest : List String} {total previous n m : Nat}

/-- A token that no scale splits. -/
def Unscaled (token : String) : Prop :=
  cardinalToken token ∧ contractScale token = none

theorem numeral_token (read : contractNumberValue token = some n) : Unscaled token :=
  ⟨by simp [cardinalToken, read], numeral_unscaled read⟩

theorem joined_tokens (joint : joined = [] ∨ joined = ["and"]) :
    ∀ token ∈ joined, Unscaled token := by
  obtain rfl | rfl := joint
  · simp
  · simp [Unscaled, cardinalToken, show contractScale "and" = none by decide]

theorem hundred_token : Unscaled "hundred" :=
  ⟨by simp [cardinalToken], by decide⟩

theorem SmallGroup.tokens (small : SmallGroup group n) : ∀ token ∈ group, Unscaled token := by
  intro token mem
  obtain ⟨m, read⟩ := small.numerals.2 token mem
  exact numeral_token read

theorem CardinalGroup.tokens (read : CardinalGroup group n) : ∀ token ∈ group, Unscaled token := by
  cases read with
  | small small => exact small.tokens
  | hundreds number _ _ joint =>
      simp only [List.forall_mem_cons]
      exact ⟨numeral_token number, hundred_token, joined_tokens joint⟩
  | tailed number _ _ joint small =>
      simp only [List.forall_mem_cons, List.forall_mem_append]
      exact ⟨numeral_token number, hundred_token, joined_tokens joint, small.tokens⟩

theorem HugeHundreds.tokens (huge : HugeHundreds group) : ∀ token ∈ group, Unscaled token := by
  obtain ⟨value, m, conjunction, token, n, rfl, joint, number, -, -, -, read, -⟩ := huge
  simp only [List.forall_mem_cons, List.forall_mem_append]
  exact ⟨numeral_token number, hundred_token, joined_tokens joint, numeral_token read, by simp⟩

theorem ScaledGroups.tokens (scaled : ScaledGroups front total previous) :
    ∀ token ∈ front, cardinalToken token := by
  induction scaled with
  | none => simp
  | group scaled read scale falls fits ih =>
      simp only [List.forall_mem_append]
      exact ⟨ih, fun token mem => (read.tokens token mem).1, by simp [cardinalToken, scale]⟩

/-! ## Numbers that groups denote -/

theorem denote_numeral (read : contractNumberValue token = some n) :
    denoteToken (total, m) token = (total, m + n) := by
  simp [denoteToken, numeral_ne_and read, numeral_ne_hundred read, numeral_unscaled read,
    numeralOf_of_read read]

theorem denote_joined (joint : joined = [] ∨ joined = ["and"]) (read : Nat × Nat) :
    joined.foldl denoteToken read = read := by
  obtain rfl | rfl := joint <;> simp [denoteToken]

theorem denote_scale (scale : contractScale token = some n) :
    denoteToken (total, m) token = (total + m * n, 0) := by
  obtain ⟨-, joint, hundred⟩ := scale_token scale
  simp [denoteToken, joint, hundred, scale]

theorem SmallGroup.denotes (small : SmallGroup group n) :
    group.foldl denoteToken (total, m) = (total, m + n) := by
  cases small with
  | digits _ read => simp [denote_numeral read]
  | word read _ => simp [denote_numeral read]
  | compound first second =>
      simp [denote_numeral first, denote_numeral second, Nat.add_assoc]

theorem CardinalGroup.denotes (read : CardinalGroup group n) :
    group.foldl denoteToken (total, 0) = (total, n) := by
  have hundred (m : Nat) : denoteToken (total, m) "hundred" = (total, m * 100) := by
    simp [denoteToken]
  cases read with
  | small small => simpa using small.denotes (m := 0)
  | hundreds number _ _ joint =>
      simp [denote_numeral number, hundred, denote_joined joint]
  | tailed number _ _ joint small =>
      simp [denote_numeral number, hundred, denote_joined joint, small.denotes]

end Groups

/-! ## Steps of the loop -/

section Steps

variable {group rest front : List String} {total total' previous scale n : Nat} {saw : Bool}

theorem checkedAdd_eq_some : checkedAdd a b = some n ↔ n = a + b ∧ n < 2 ^ 64 := by
  simp only [checkedAdd]
  split <;> simp <;> omega

theorem checkedMul_eq_some : checkedMul a b = some n ↔ n = a * b ∧ n < 2 ^ 64 := by
  simp only [checkedMul]
  split <;> simp <;> omega

theorem scaled_eq_ok :
    contractCardinalScaled total previous scale group = .ok total' ↔
      scale < previous ∧ ∃ n, CardinalGroup group n ∧ total' = total + n * scale ∧
        total' < 2 ^ 64 := by
  simp only [contractCardinalScaled]
  split
  · rename_i rises
    simp [Nat.not_lt.mpr rises]
  · rename_i falls
    cases count : contractCardinalUnderThousand group with
    | error unread =>
        have unread : ¬ ∃ n, CardinalGroup group n := by
          rintro ⟨n, read⟩
          rw [(underThousand_eq_ok).mpr read] at count
          cases count
        simp only [bind, Except.bind, reduceCtorEq, false_iff]
        exact fun h => unread (h.2.imp fun n read => read.1)
    | ok n =>
        have read := underThousand_eq_ok.mp count
        have same {k : Nat} (other : CardinalGroup group k) : k = n := by
          have := (underThousand_eq_ok).mpr other
          rw [count] at this
          exact (Except.ok.inj this).symm
        simp only [bind, Except.bind]
        constructor
        · intro sum
          cases product : checkedMul n scale with
          | none => simp [product, orRefused] at sum
          | some p =>
              simp only [product, orRefused] at sum
              obtain ⟨rfl, -⟩ := checkedMul_eq_some.mp product
              have added := checkedAdd_eq_some.mp (orRefused_eq_ok.mp sum)
              exact ⟨Nat.not_le.mp falls, n, read, added⟩
        · rintro ⟨-, k, other, rfl, fits⟩
          obtain rfl := same other
          have product : checkedMul k scale = some (k * scale) :=
            (checkedMul_eq_some).mpr ⟨rfl, by omega⟩
          have sum : checkedAdd total (k * scale) = some (total + k * scale) :=
            (checkedAdd_eq_some).mpr ⟨rfl, fits⟩
          simp [product, sum, orRefused]

theorem scaled_overflow (h : contractCardinalScaled total previous scale group = .error .overflow) :
    HugeHundreds group := by
  simp only [contractCardinalScaled] at h
  split at h
  · cases h
  · cases count : contractCardinalUnderThousand group with
    | error unread =>
        simp only [count, bind, Except.bind] at h
        cases h
        exact underThousand_overflow.mp count
    | ok n =>
        simp only [count, bind, Except.bind] at h
        cases product : checkedMul n scale with
        | none => simp [product, orRefused] at h
        | some p =>
            simp only [product, orRefused] at h
            exact absurd h (orRefused_ne_overflow _)

theorem loop_group (tokens : ∀ token ∈ group, Unscaled token) (front rest : List String) :
    contractCardinalLoop total previous saw front (group ++ rest) =
      contractCardinalLoop total previous saw (front ++ group) rest := by
  induction group generalizing front with
  | nil => simp
  | cons token group ih =>
      obtain ⟨own, others⟩ := List.forall_mem_cons.mp tokens
      simp only [List.cons_append, contractCardinalLoop, own.2]
      rw [ih others, List.append_assoc, List.singleton_append]

theorem isEmpty_scaled (front group : List String) (word : String) :
    (front ++ (group ++ [word])).isEmpty = false := by
  simp [List.isEmpty_eq_false_iff]

theorem loop_scaled (scaled : ScaledGroups front total previous) (rest : List String) :
    contractCardinalValue (front ++ rest) =
      contractCardinalLoop total previous (!front.isEmpty) [] rest := by
  induction scaled generalizing rest with
  | none => rfl
  | @group front total previous group n word scale scaled read known falls fits ih =>
      rw [List.append_assoc, ih, List.append_assoc, loop_group read.tokens, List.nil_append,
        List.singleton_append, contractCardinalLoop, known]
      have sum : contractCardinalScaled total previous scale group = .ok (total + n * scale) :=
        (scaled_eq_ok).mpr ⟨falls, n, read, rfl, fits⟩
      simp [sum, bind, Except.bind, isEmpty_scaled]

end Steps

/-! ## Whole readings -/

section Readings

variable {group rest front values : List String} {total previous n : Nat} {saw : Bool}

theorem tail_denotes (read : contractCardinalTail total saw group = .ok n) :
    (let sum := group.foldl denoteToken (total, 0); sum.1 + sum.2 = n) ∧
      (total < 2 ^ 64 → n < 2 ^ 64) := by
  simp only [contractCardinalTail] at read
  have split : ∃ joined, (joined = [] ∨ joined = ["and"]) ∧
      group = joined ++ if saw then skipAnd group else group := by
    cases saw
    · exact ⟨[], .inl rfl, rfl⟩
    · exact skipAnd_cases group
  obtain ⟨joined, joint, split⟩ := split
  generalize (if saw then skipAnd group else group) = tail at read split
  subst split
  rw [List.foldl_append, denote_joined joint]
  split at read
  · rename_i empty
    subst empty
    cases saw with
    | false => cases read
    | true =>
        cases read
        exact ⟨rfl, id⟩
  · cases count : contractCardinalUnderThousand tail with
    | error unread => simp [count, bind, Except.bind] at read
    | ok k =>
        simp only [count, bind, Except.bind] at read
        obtain ⟨rfl, fits⟩ := checkedAdd_eq_some.mp (orRefused_eq_ok.mp read)
        rw [(underThousand_eq_ok.mp count).denotes]
        exact ⟨rfl, fun _ => fits⟩

/-- A loop that ends with a number has added up what the tokens denote. -/
theorem loop_denotes (read : contractCardinalLoop total previous saw group rest = .ok n) :
    (let sum := (group ++ rest).foldl denoteToken (total, 0); sum.1 + sum.2 = n) ∧
      (total < 2 ^ 64 → n < 2 ^ 64) := by
  induction rest generalizing total previous saw group with
  | nil =>
      rw [List.append_nil]
      exact tail_denotes read
  | cons token rest ih =>
      cases known : contractScale token with
      | none =>
          simp only [contractCardinalLoop, known] at read
          simpa using ih read
      | some scale =>
          simp only [contractCardinalLoop, known] at read
          cases step : contractCardinalScaled total previous scale group with
          | error unread => simp [step, bind, Except.bind] at read
          | ok sum =>
              simp only [step, bind, Except.bind] at read
              obtain ⟨-, k, count, rfl, fits⟩ := scaled_eq_ok.mp step
              have later := ih read
              rw [List.foldl_append, count.denotes, List.foldl_cons, denote_scale known]
              exact ⟨later.1, fun _ => later.2 fits⟩

theorem value_denotes (read : contractCardinalValue values = .ok n) :
    denotation values = n ∧ n < 2 ^ 64 := by
  have sum := loop_denotes read
  exact ⟨sum.1, sum.2 (by simp)⟩

/-- A loop behind complete groups overflows only where the tokens say so. -/
theorem loop_overflow (scaled : ScaledGroups front total previous)
    (overflow : contractCardinalLoop total previous (!front.isEmpty) group rest =
      .error .overflow) :
    ReadsIntoOverflow (front ++ (group ++ rest)) := by
  induction rest generalizing front total previous group with
  | nil =>
      simp only [contractCardinalLoop, contractCardinalTail] at overflow
      have split : ∃ joined, (joined = [] ∨ joined = ["and"] ∧ front ≠ []) ∧
          group = joined ++ if !front.isEmpty then skipAnd group else group := by
        cases front with
        | nil => exact ⟨[], .inl rfl, rfl⟩
        | cons token front =>
            obtain ⟨joined, joint, split⟩ := skipAnd_cases group
            exact ⟨joined, joint.imp_right fun joint => ⟨joint, by simp⟩, split⟩
      obtain ⟨joined, joint, split⟩ := split
      generalize (if !front.isEmpty then skipAnd group else group) = tail at overflow split
      split at overflow
      · split at overflow <;> cases overflow
      · cases count : contractCardinalUnderThousand tail with
        | ok k =>
            simp only [count, bind, Except.bind] at overflow
            exact absurd overflow (orRefused_ne_overflow _)
        | error unread =>
            simp only [count, bind, Except.bind] at overflow
            cases overflow
            exact ⟨front, total, previous, joined, tail, [], by simp [split], scaled, joint,
              underThousand_overflow.mp count⟩
  | cons token rest ih =>
      cases known : contractScale token with
      | none =>
          simp only [contractCardinalLoop, known] at overflow
          simpa using ih scaled overflow
      | some scale =>
          simp only [contractCardinalLoop, known] at overflow
          cases step : contractCardinalScaled total previous scale group with
          | error unread =>
              simp only [step, bind, Except.bind] at overflow
              cases overflow
              exact ⟨front, total, previous, [], group, token :: rest, rfl, scaled, .inl rfl,
                scaled_overflow step⟩
          | ok sum =>
              simp only [step, bind, Except.bind] at overflow
              obtain ⟨falls, k, count, rfl, fits⟩ := scaled_eq_ok.mp step
              have next := ScaledGroups.group scaled count known falls fits
              have behind : ReadsIntoOverflow (front ++ (group ++ [token]) ++ ([] ++ rest)) :=
                ih next (by simpa [isEmpty_scaled] using overflow)
              simpa using behind

theorem value_overflow (overflow : contractCardinalValue values = .error .overflow) :
    ReadsIntoOverflow values := by
  have behind : ReadsIntoOverflow ([] ++ ([] ++ values)) := loop_overflow .none overflow
  exact behind

/-! ## Readings past an overflow -/

/-- Tokens behind the hundreds that overflow do not make the group readable. -/
theorem huge_blocks (huge : HugeHundreds group) (joint : joined = [] ∨ joined = ["and"])
    (more : List String) :
    contractCardinalUnderThousand (joined ++ (group ++ more)) ≠ .ok n := by
  rw [Ne, underThousand_eq_ok]
  intro read
  obtain ⟨value, m, conjunction, token, k, rfl, joint', number, lower, upper, digits, numeral,
    exceeds⟩ := huge
  obtain rfl | rfl := joint
  · rw [List.nil_append, List.cons_append, List.cons_append, ← contractHundreds_eq_ok,
      contractHundreds_eq number lower upper, List.append_assoc, List.singleton_append,
      skipAnd_joined joint' numeral] at read
    cases count : contractRemainder (token :: more) with
    | error unread => simp [count, Except.bind] at read
    | ok l =>
        obtain ⟨filled, -⟩ | small := contractRemainder_eq_ok.mp count
        · cases filled
        · simp only [count, Except.bind] at read
          cases small with
          | digits _ same | word same =>
              rw [numeral] at same
              cases same
              rw [addU64_of_le exceeds] at read
              cases read
          | compound same =>
              rw [numeral] at same
              cases same
              omega
  · have numerals := read.tokens
    generalize whole : ["and"] ++ (value :: "hundred" :: (conjunction ++ [token]) ++ more) = values
      at read
    cases read with
    | small small =>
        subst whole
        obtain ⟨_, joint⟩ := small.numerals.2 "and" (by simp)
        exact absurd rfl (numeral_ne_and joint)
    | hundreds first =>
        simp only [List.cons_append, List.nil_append, List.cons.injEq] at whole
        exact numeral_ne_hundred number whole.2.1
    | tailed first =>
        simp only [List.cons_append, List.nil_append, List.cons.injEq] at whole
        exact numeral_ne_hundred number whole.2.1

theorem loop_blocked (huge : HugeHundreds group) (joint : joined = [] ∨ joined = ["and"])
    (more rest : List String) :
    contractCardinalLoop total previous saw (joined ++ (group ++ more)) rest ≠ .ok n := by
  induction rest generalizing total previous saw more with
  | nil =>
      have tail : ∃ joined', (joined' = [] ∨ joined' = ["and"]) ∧
          (if saw then skipAnd (joined ++ (group ++ more)) else joined ++ (group ++ more)) =
            joined' ++ (group ++ more) := by
        cases saw with
        | false => exact ⟨joined, joint, rfl⟩
        | true =>
            obtain ⟨value, m, conjunction, token, k, rfl, -, number, -⟩ := huge
            exact ⟨[], .inl rfl, skipAnd_joined joint number⟩
      obtain ⟨joined', joint', tail⟩ := tail
      have filled : joined' ++ (group ++ more) ≠ [] := by
        obtain ⟨value, m, conjunction, token, k, rfl, -⟩ := huge
        simp
      simp only [contractCardinalLoop, contractCardinalTail, tail, if_neg filled]
      cases count : contractCardinalUnderThousand (joined' ++ (group ++ more)) with
      | error unread => simp [bind, Except.bind]
      | ok k => exact absurd count (huge_blocks huge joint' more)
  | cons token rest ih =>
      cases known : contractScale token with
      | none =>
          simp only [contractCardinalLoop, known]
          rw [List.append_assoc, List.append_assoc]
          exact ih (more ++ [token])
      | some scale =>
          simp only [contractCardinalLoop, known]
          cases step : contractCardinalScaled total previous scale (joined ++ (group ++ more)) with
          | error unread => simp [bind, Except.bind]
          | ok sum =>
              obtain ⟨-, k, count, -⟩ := scaled_eq_ok.mp step
              exact absurd ((underThousand_eq_ok).mpr count) (huge_blocks huge joint more)

theorem tail_overflow (huge : HugeHundreds group)
    (joint : joined = [] ∨ joined = ["and"] ∧ saw = true) :
    contractCardinalTail total saw (joined ++ group) = .error .overflow := by
  have tail : (if saw then skipAnd (joined ++ group) else joined ++ group) = group := by
    obtain ⟨value, m, conjunction, token, k, rfl, -, number, -⟩ := huge
    cases saw with
    | false =>
        obtain rfl : joined = [] := by simpa using joint
        rfl
    | true => exact skipAnd_joined (joint.imp_right And.left) number
  have filled : group ≠ [] := by
    obtain ⟨value, m, conjunction, token, k, rfl, -⟩ := huge
    simp
  simp [contractCardinalTail, tail, filled, (underThousand_overflow).mpr huge, bind, Except.bind]

theorem within_overflow {consumed : Nat}
    (overflow : contractCardinalWithin values consumed = .error .overflow) :
    ∃ k, contractCardinalValue (values.take k) = .error .overflow := by
  induction consumed with
  | zero => cases overflow
  | succ consumed ih =>
      simp only [contractCardinalWithin] at overflow
      split at overflow
      · cases overflow
      · rename_i value
        exact ⟨_, value⟩
      · exact ih overflow

theorem within_of_overflow {k consumed : Nat} (positive : 0 < k) (le : k ≤ consumed)
    (value : contractCardinalValue (values.take k) = .error .overflow)
    (unread : ∀ l, k < l → ∀ n, contractCardinalValue (values.take l) ≠ .ok n) :
    contractCardinalWithin values consumed = .error .overflow := by
  induction consumed with
  | zero => omega
  | succ consumed ih =>
      rw [contractCardinalWithin]
      obtain rfl | lt : k = consumed + 1 ∨ k ≤ consumed := by omega
      · rw [value]
      · cases read : contractCardinalValue (values.take (consumed + 1)) with
        | ok n => exact absurd read (unread _ (by omega) n)
        | error reason =>
            cases reason with
            | overflow => rfl
            | refused => exact ih lt

theorem within_ok {consumed k : Nat} (read : contractCardinalWithin values consumed = .ok (n, k)) :
    k ≤ consumed ∧ contractCardinalValue (values.take k) = .ok n := by
  induction consumed with
  | zero => cases read
  | succ consumed ih =>
      simp only [contractCardinalWithin] at read
      split at read
      · rename_i value
        cases read
        exact ⟨le_rfl, value⟩
      · cases read
      · exact (ih read).imp_left fun le => by omega

theorem prefix_ok {k : Nat} (read : contractCardinalPrefix values = .ok (n, k)) :
    k ≤ values.length ∧ denotation (values.take k) = n ∧ n < 2 ^ 64 := by
  obtain ⟨le, value⟩ := within_ok read
  exact ⟨le.trans (List.takeWhile_prefix _).length_le, value_denotes value⟩

theorem prefix_overflow (h : ReadsIntoOverflow values) :
    contractCardinalPrefix values = .error .overflow := by
  obtain ⟨front, total, previous, joined, group, rest, rfl, scaled, joint, huge⟩ := h
  have joint' : joined = [] ∨ joined = ["and"] := joint.imp_right And.left
  have tokens : ∀ token ∈ front ++ (joined ++ group), cardinalToken token := by
    simp only [List.forall_mem_append]
    exact ⟨scaled.tokens, fun token mem => (joined_tokens joint' token mem).1,
      fun token mem => (huge.tokens token mem).1⟩
  have filled : group ≠ [] := by
    obtain ⟨value, m, conjunction, token, k, rfl, -⟩ := huge
    simp
  have parts : front ++ (joined ++ (group ++ rest)) = front ++ (joined ++ group) ++ rest := by
    simp
  rw [contractCardinalPrefix, parts]
  refine within_of_overflow (k := (front ++ (joined ++ group)).length) ?_ ?_ ?_ ?_
  · simp only [List.length_append]
    have := List.length_pos_iff.mpr filled
    omega
  · rw [List.takeWhile_append_of_pos tokens]
    simp only [List.length_append]
    omega
  · rw [List.take_left, loop_scaled scaled, ← List.append_nil (joined ++ group),
      loop_group (by
        simp only [List.forall_mem_append]
        exact ⟨joined_tokens joint', huge.tokens⟩), List.nil_append, contractCardinalLoop]
    exact tail_overflow huge (joint.imp_right fun joint => ⟨joint.1, by simpa using joint.2⟩)
  · intro l lt n
    obtain ⟨more, taken⟩ : ∃ more, (front ++ (joined ++ group) ++ rest).take l =
        front ++ ((joined ++ group) ++ more) := by
      exact ⟨rest.take (l - (front ++ (joined ++ group)).length), by
        rw [List.take_append, List.take_of_length_le lt.le, List.append_assoc]⟩
    rw [taken, loop_scaled scaled, loop_group (by
        simp only [List.forall_mem_append]
        exact ⟨joined_tokens joint', huge.tokens⟩), List.nil_append]
    simpa using loop_blocked huge joint' [] more

/-- A cardinal is read without leaving the range of `u64`, and as what its tokens denote,
exactly when no hundreds in front of too large a numeral are reached. -/
theorem cardinal_reading_iff (values : List String) :
    CardinalRead values ↔ ¬ ReadsIntoOverflow values := by
  constructor
  · exact fun read overflow => read.in_range (prefix_overflow overflow)
  · intro stays
    refine ⟨fun overflow => ?_, fun read => ?_, fun large n read => ?_⟩
    · obtain ⟨k, value⟩ := within_overflow overflow
      obtain ⟨front, total, previous, joined, group, rest, split, reached⟩ := value_overflow value
      refine stays ⟨front, total, previous, joined, group, rest ++ values.drop k, ?_, reached⟩
      conv_lhs => rw [← List.take_append_drop k values, split]
      simp
    · have := prefix_ok read
      exact ⟨this.1, this.2.1⟩
    · have := value_denotes read
      omega

theorem hundred_of_digits_overflows :
    ¬ CardinalRead ["one", "hundred", "18446744073709551615"] := by
  intro read
  exact read.in_range rfl

end Readings

end DocumentSummarizer.Coherent
