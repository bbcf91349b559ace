import DocumentSummarizer.Coherent.OutputBudget

/-! # Output admission is maximal

The allowance of an admitted request is the greatest that its runtime admits beneath the
context, the ceiling of its texts is the greatest that fits, and what was reserved for the
feedback of a repair is there when the repair is admitted.
-/

namespace DocumentSummarizer.Coherent

open DocumentSummarizer.Library DocumentSummarizer.Pipeline DocumentSummarizer.Pipeline.Gateway

/-! ## Fields -/

theorem find_updated (key other : String) (update : Json → Json) (fields : List (String × Json)) :
    (fields.map fun entry => if entry.1 = key then (entry.1, update entry.2) else entry).find?
        (fun entry => decide (entry.1 = other)) =
      (fields.find? fun entry => decide (entry.1 = other)).map fun entry =>
        if entry.1 = key then (entry.1, update entry.2) else entry := by
  induction fields with
  | nil => rfl
  | cons entry later ih =>
      have named : (if entry.1 = key then (entry.1, update entry.2) else entry).1 = entry.1 := by
        split <;> rfl
      rw [List.map_cons, List.find?_cons, List.find?_cons, ih, named]
      cases decide (entry.1 = other) <;> rfl

theorem field_updateField_other {key other : String} (different : other ≠ key)
    (update : Json → Json) (value : Json) :
    field other (updateField key update value) = field other value := by
  cases value with
  | object fields =>
      by_cases held : (fields.any fun entry => decide (entry.1 = key)) = true
      · simp only [updateField, held, if_true, field, find_updated]
        cases found : fields.find? (fun entry => decide (entry.1 = other)) with
        | none => rfl
        | some entry =>
            have named : entry.1 = other := by simpa using List.find?_some found
            simp [named, different]
      · simp [updateField, held, field, List.find?_append, different.symm]
  | null => simp [updateField, field, different.symm]
  | _ => rfl

theorem field_updateField_same {key : String} {update : Json → Json}
    {fields : List (String × Json)} :
    field key (updateField key update (.object fields)) =
      update (field key (.object fields)) := by
  by_cases held : (fields.any fun entry => decide (entry.1 = key)) = true
  · simp only [updateField, held, if_true, field, find_updated]
    cases found : fields.find? (fun entry => decide (entry.1 = key)) with
    | none =>
        obtain ⟨entry, mem, named⟩ := List.any_eq_true.mp held
        exact absurd named (List.find?_eq_none.mp found entry mem)
    | some entry =>
        have named : entry.1 = key := by simpa using List.find?_some found
        simp [named]
  · have none : fields.find? (fun entry => decide (entry.1 = key)) = none := by
      rw [List.find?_eq_none]
      intro entry mem named
      exact held (List.any_eq_true.mpr ⟨entry, mem, named⟩)
    simp [updateField, held, field, List.find?_append, none]

theorem object_of_field {key : String} {value : Json} (present : field key value ≠ .null) :
    ∃ fields, value = .object fields := by
  cases value with
  | object fields => exact ⟨fields, rfl⟩
  | _ => exact absurd rfl present

theorem field_update_of_present {key : String} {update : Json → Json} {value : Json}
    (present : field key value ≠ .null) :
    field key (updateField key update value) = update (field key value) := by
  obtain ⟨fields, rfl⟩ := object_of_field present
  exact field_updateField_same

theorem updateField_null_ne {key : String} {value : Json} (absent : value = .null) :
    field key value = .null := by
  subst absent
  rfl

section Ceilings

variable {schema : Json} {characters maximum : Nat}

/-- Where a ceiling is set, the whole path to it is there. -/
structure HasCeiling (schema : Json) : Prop where
  text : maxLengthOf schema ≠ .null
  texts : field "text" (unitFields schema) ≠ .null
  fields : unitFields schema ≠ .null
  items : field "items" (unitsOf schema) ≠ .null
  units : unitsOf schema ≠ .null
  properties : field "properties" schema ≠ .null

theorem hasCeiling (present : asU64 (maxLengthOf schema) = some maximum) : HasCeiling schema := by
  have text : maxLengthOf schema ≠ .null := by
    intro none
    rw [none] at present
    cases present
  have texts : field "text" (unitFields schema) ≠ .null := fun none =>
    text (updateField_null_ne none)
  have fields : unitFields schema ≠ .null := fun none => texts (updateField_null_ne none)
  have items : field "items" (unitsOf schema) ≠ .null := fun none =>
    fields (updateField_null_ne none)
  have units : unitsOf schema ≠ .null := fun none => items (updateField_null_ne none)
  exact ⟨text, texts, fields, items, units, fun none => units (updateField_null_ne none)⟩

theorem unitsOf_setMaxLength (h : HasCeiling schema) :
    unitsOf (setMaxLength characters schema) =
      updateField "items" (updateField "properties" <| updateField "text" <|
        updateField "maxLength" fun _ => .unsigned characters) (unitsOf schema) := by
  rw [setMaxLength, unitsOf, field_update_of_present h.properties, field_update_of_present h.units]
  rfl

theorem unitFields_setMaxLength (h : HasCeiling schema) :
    unitFields (setMaxLength characters schema) =
      updateField "text" (updateField "maxLength" fun _ => .unsigned characters)
        (unitFields schema) := by
  rw [unitFields, unitsOf_setMaxLength h, field_update_of_present h.items,
    field_update_of_present h.fields]
  rfl

theorem maxLengthOf_setMaxLength (h : HasCeiling schema) :
    maxLengthOf (setMaxLength characters schema) = .unsigned characters := by
  rw [maxLengthOf, unitFields_setMaxLength h, field_update_of_present h.texts,
    field_update_of_present h.text]

theorem responseStructure_setMaxLength (h : HasCeiling schema) (n : Nat) :
    responseStructure (setMaxLength characters schema) n = responseStructure schema n := by
  have count : field "maxItems" (unitsOf (setMaxLength characters schema)) =
      field "maxItems" (unitsOf schema) := by
    rw [unitsOf_setMaxLength h]
    exact field_updateField_other (by decide) _ _
  have sources : field "source_ids" (unitFields (setMaxLength characters schema)) =
      field "source_ids" (unitFields schema) := by
    rw [unitFields_setMaxLength h]
    exact field_updateField_other (by decide) _ _
  simp only [responseStructure, count, sources]

theorem responseTokens_setMaxLength (h : HasCeiling schema) (n : Nat) :
    responseTokens (setMaxLength characters schema) n = responseTokens schema n := by
  simp only [responseTokens, responseStructure_setMaxLength h]

end Ceilings

/-! ## The estimate grows with the ceiling -/

theorem responseStructure_mono {schema : Json} {least characters : Nat} {shape : Nat × Nat}
    (positive : 0 < least) (le : least ≤ characters)
    (shaped : responseStructure schema characters = some shape) :
    responseStructure schema least = some shape := by
  unfold responseStructure at shaped ⊢
  simp only [Option.bind_eq_bind, Option.bind_eq_some_iff] at shaped ⊢
  obtain ⟨count, counted, sourceCount, sourced, shaped⟩ := shaped
  refine ⟨count, counted, sourceCount, sourced, ?_⟩
  split at shaped
  · cases shaped
  · next usable =>
      rw [if_neg (by omega)]
      exact shaped

theorem checkedUsize_eq_some {n m : Nat} : checkedUsize n = some m ↔ n ≤ usizeLimit ∧ m = n := by
  unfold checkedUsize
  split
  · next inside =>
      simp only [Option.some.injEq, inside, true_and]
      exact eq_comm
  · next outside => simp [outside]

theorem toU32_eq_some {n m : Nat} : toU32 n = some m ↔ n ≤ u32Max ∧ m = n := by
  unfold toU32
  split
  · next inside =>
      simp only [Option.some.injEq, inside, true_and]
      exact eq_comm
  · next outside => simp [outside]

theorem responseTokens_eq_some {schema : Json} {characters tokens : Nat} :
    responseTokens schema characters = some tokens ↔
      ∃ count overhead, responseStructure schema characters = some (count, overhead) ∧
        count * characters ≤ usizeLimit ∧ count * characters * textTokensNumerator ≤ usizeLimit ∧
        count * characters * textTokensNumerator + (textTokensDenominator - 1) ≤ usizeLimit ∧
        overhead + (count * characters * textTokensNumerator + (textTokensDenominator - 1)) /
          textTokensDenominator ≤ usizeLimit ∧
        overhead + (count * characters * textTokensNumerator + (textTokensDenominator - 1)) /
          textTokensDenominator + formattingTokens ≤ u32Max ∧
        tokens = max (overhead + (count * characters * textTokensNumerator +
          (textTokensDenominator - 1)) / textTokensDenominator + formattingTokens)
          leastOutputTokens := by
  simp only [responseTokens, Option.bind_eq_bind, Option.bind_eq_some_iff, checkedUsize_eq_some,
    toU32_eq_some, Prod.exists, Option.pure_def, Option.some.injEq]
  constructor
  · rintro ⟨count, overhead, shaped, _, ⟨a, rfl⟩, _, ⟨b, rfl⟩, _, ⟨c, rfl⟩, _, ⟨d, rfl⟩, _, ⟨_, rfl⟩, _,
      ⟨e, rfl⟩, rfl⟩
    exact ⟨count, overhead, shaped, a, b, c, d, e, rfl⟩
  · rintro ⟨count, overhead, shaped, a, b, c, d, e, rfl⟩
    exact ⟨count, overhead, shaped, _, ⟨a, rfl⟩, _, ⟨b, rfl⟩, _, ⟨c, rfl⟩, _, ⟨d, rfl⟩, _,
      ⟨by omega, rfl⟩, _, ⟨e, rfl⟩, rfl⟩

theorem responseTokens_mono {schema : Json} {least characters tokens : Nat} (positive : 0 < least)
    (le : least ≤ characters) (estimated : responseTokens schema characters = some tokens) :
    ∃ fewer, responseTokens schema least = some fewer ∧ fewer ≤ tokens := by
  obtain ⟨count, overhead, shaped, a, b, c, d, e, rfl⟩ := responseTokens_eq_some.mp estimated
  have texts : count * least ≤ count * characters := Nat.mul_le_mul_left _ le
  have scaled : count * least * textTokensNumerator ≤ count * characters * textTokensNumerator :=
    Nat.mul_le_mul_right _ texts
  have rounded : (count * least * textTokensNumerator + (textTokensDenominator - 1)) /
      textTokensDenominator ≤
      (count * characters * textTokensNumerator + (textTokensDenominator - 1)) /
        textTokensDenominator := Nat.div_le_div_right (by omega)
  refine ⟨_, responseTokens_eq_some.mpr ⟨count, overhead, responseStructure_mono positive le shaped,
    by omega, by omega, by omega, by omega, by omega, rfl⟩, ?_⟩
  omega

/-! ## The runtime's boundary -/

def Admits (runtime : ModelRuntime) (request : ModelRequest) (tokens : Nat) : Prop :=
  runtime.preflightRequest { request with maxOutputTokens := tokens } = .ok ()

/-- What is admitted with more output is admitted with less. -/
def AdmitsLess (runtime : ModelRuntime) : Prop :=
  ∀ request tokens fewer, fewer ≤ tokens → Admits runtime request tokens →
    Admits runtime request fewer

/-- Nothing but the context and the output cap is refused. -/
def RefusesCapacityOnly (runtime : ModelRuntime) : Prop :=
  ∀ request failure, runtime.preflightRequest request = .error failure →
    failure.code ∈ contextCodes

/-- The greatest output that the runtime admits beneath its context, with a reserve on top. -/
def Allowance (runtime : ModelRuntime) (request : ModelRequest) (reserve : Nat) :
    Option Nat → Prop :=
  IsGreatest (fun tokens => Admits runtime request (tokens + reserve)) leastOutputTokens
    (runtime.contextTokens .synthesize - tokenizerFramingReserveTokens - reserve)

/-- The greatest ceiling on a text for which the estimate fits a capacity. -/
def Ceiling (schema : Json) (capacity maximum : Nat) : Option Nat → Prop :=
  IsGreatest
    (fun characters => ∃ estimate, responseTokens schema characters = some estimate ∧
      estimate ≤ capacity) 1 maximum

section Admission

variable {runtime : ModelRuntime} {request admitted : ModelRequest} {resize : Bool}

theorem admitsOutput_decides (capacityOnly : RefusesCapacityOnly runtime) {reserve tokens : Nat}
    (inside : tokens + reserve ≤ u32Max) :
    ∃ b, admitsOutput runtime request reserve tokens = .ok b ∧
      (b = true ↔ Admits runtime request (tokens + reserve)) := by
  have maximum : toU32 (tokens + reserve) = some (tokens + reserve) :=
    toU32_eq_some.mpr ⟨inside, rfl⟩
  cases asked : runtime.preflightRequest { request with maxOutputTokens := tokens + reserve } with
  | ok u =>
      refine ⟨true, ?_, by simp [Admits, asked]⟩
      simp only [admitsOutput, maximum, okOrElse_some, requestExceedsRuntimeContext]
      show (Except.ok _ >>= fun _ => _) = _
      simp [bind, Except.bind, asked, pure, Except.pure]
  | error failure =>
      refine ⟨false, ?_, by simp [Admits, asked]⟩
      have known := capacityOnly _ _ asked
      simp only [admitsOutput, maximum, okOrElse_some, requestExceedsRuntimeContext]
      show (Except.ok _ >>= fun _ => _) = _
      simp [bind, Except.bind, asked, known, pure, Except.pure]

theorem availableOutput_spec (fewer : AdmitsLess runtime)
    (capacityOnly : RefusesCapacityOnly runtime)
    (context : runtime.contextTokens .synthesize ≤ u32Max) (request : ModelRequest)
    (reserveFeedback : Bool) :
    ∃ r, availableOutput runtime request reserveFeedback = .ok r ∧
      Allowance runtime request (feedbackReserve reserveFeedback) r := by
  unfold availableOutput
  simp only
  have framing : tokenizerFramingReserveTokens = 512 := rfl
  split
  · next short =>
      refine ⟨none, rfl, ?_⟩
      intro tokens least most
      have : leastOutputTokens = 2048 := rfl
      omega
  · next room =>
      apply greatestAdmitted_spec (by decide) (by omega)
      · intro tokens _ most
        exact admitsOutput_decides capacityOnly (by omega)
      · intro tokens more _ le admits
        exact fewer request (more + feedbackReserve reserveFeedback) _ (by omega) admits

theorem ceiling_spec {schema : Json} {maximum estimate : Nat} (capacity : Nat)
    (bounded : maximum ≤ maxUnitCharacters)
    (estimated : responseTokens schema maximum = some estimate) :
    ∃ r, greatestAdmitted (ceilingFits schema capacity) usizeLimit .overflow 1 maximum none = .ok r ∧
      Ceiling schema capacity maximum r := by
  have small : maxUnitCharacters = 1200 := rfl
  have wide : usizeLimit = 18446744073709551615 := rfl
  apply greatestAdmitted_spec (by decide) (by omega)
  · intro characters least most
    obtain ⟨tokens, here, _⟩ := responseTokens_mono least most estimated
    refine ⟨decide (tokens ≤ capacity), ?_, ?_⟩
    · simp only [ceilingFits, here, okOrElse_some]
      rfl
    · simp [here]
  · rintro characters more least le ⟨tokens, here, fits⟩
    obtain ⟨smaller, there, le'⟩ := responseTokens_mono least le here
    exact ⟨smaller, there, Nat.le_trans le' fits⟩

theorem maximumCharacters_ok {maximum : Nat} :
    maximumCharacters request = .ok maximum ↔
      ∃ schema, schemaOf request = some schema ∧ asU64 (maxLengthOf schema) = some maximum ∧
        0 < maximum ∧ maximum ≤ maxUnitCharacters := by
  simp only [maximumCharacters, peel_ok, okOrElse_eq_ok, refuseIf_eq_ok, return_ok,
    Decidable.not_not]
  constructor
  · rintro ⟨schema, held, maximum', asked, _, bounds, rfl⟩
    exact ⟨schema, held, asked, bounds⟩
  · rintro ⟨schema, held, asked, bounds⟩
    exact ⟨schema, held, maximum, asked, ⟨⟩, bounds, rfl⟩

/-- The shape that an admitted request has, and the estimate for it. -/
def Shaped (request : ModelRequest) (estimate : Nat) : Prop :=
  ∃ schema maximum, schemaOf request = some schema ∧
    maximumCharacters request = .ok maximum ∧ responseTokens schema maximum = some estimate

theorem schemaOf_withCeiling {schema : Json} {characters : Nat}
    (held : schemaOf request = some schema) :
    schemaOf (withCeiling request characters) = some (setMaxLength characters schema) := by
  unfold schemaOf at held
  unfold withCeiling
  split at held
  · next name schema' format =>
      cases held
      simp [schemaOf]
  · cases held

theorem shaped_withCeiling {schema : Json} {characters maximum estimate : Nat}
    (held : schemaOf request = some schema) (there : asU64 (maxLengthOf schema) = some maximum)
    (least : 0 < characters) (most : characters ≤ maxUnitCharacters)
    (estimated : responseTokens schema characters = some estimate) :
    Shaped (withCeiling request characters) estimate := by
  have path := hasCeiling there
  refine ⟨setMaxLength characters schema, characters, schemaOf_withCeiling held, ?_, ?_⟩
  · rw [maximumCharacters_ok]
    refine ⟨_, schemaOf_withCeiling held, ?_, least, most⟩
    rw [maxLengthOf_setMaxLength path]
    rfl
  · rw [responseTokens_setMaxLength path, estimated]

/-- How a request is admitted: as it was, where the estimate for it fits, and otherwise with the
greatest ceiling on its texts that fits; and with all output that is then available. -/
structure AdmittedOutput (runtime : ModelRuntime) (request : ModelRequest) (resize : Bool)
    (admitted : ModelRequest) : Prop where
  allowance : Allowance runtime admitted (feedbackReserve resize) (some admitted.maxOutputTokens)
  estimated : ∃ estimate, Shaped admitted estimate ∧ estimate ≤ admitted.maxOutputTokens
  ceiling : ∃ schema maximum estimate capacity, schemaOf request = some schema ∧
    maximumCharacters request = .ok maximum ∧ responseTokens schema maximum = some estimate ∧
    Allowance runtime request (feedbackReserve resize) (some capacity) ∧
    (estimate ≤ capacity → admitted = { request with maxOutputTokens := capacity }) ∧
    (capacity < estimate → resize = true ∧
      ∃ characters, Ceiling schema capacity maximum (some characters) ∧
        admitted = { withCeiling request characters with
          maxOutputTokens := admitted.maxOutputTokens })

/-- Arithmetic never leaves its type, and what is admitted is admitted as described. -/
theorem admitOutput_spec (fewer : AdmitsLess runtime) (capacityOnly : RefusesCapacityOnly runtime)
    (context : runtime.contextTokens .synthesize ≤ u32Max) :
    admitOutput runtime request resize ≠ .error .overflow ∧
      ∀ admitted, admitOutput runtime request resize = .ok (some admitted) →
        AdmittedOutput runtime request resize admitted := by
  unfold admitOutput
  cases held : schemaOf request with
  | none => exact ⟨by simp [okOrElse, bind, Except.bind], by simp [okOrElse, bind, Except.bind]⟩
  | some schema =>
      rw [okOrElse_some, ok_bind rfl]
      cases bound : maximumCharacters request with
      | error halt =>
          have failed : halt = .failed invalidBudget := by
            unfold maximumCharacters at bound
            rw [held, okOrElse_some, ok_bind rfl] at bound
            cases present : asU64 (maxLengthOf schema) with
            | none =>
                rw [present] at bound
                cases bound
                rfl
            | some maximum =>
                rw [present, okOrElse_some, ok_bind rfl] at bound
                by_cases usable : 0 < maximum ∧ maximum ≤ maxUnitCharacters
                · simp [refuseIf, usable, bind, Except.bind, pure, Except.pure] at bound
                · simp only [refuseIf, usable, not_false_eq_true, if_true, bind, Except.bind,
                    Except.error.injEq] at bound
                  exact bound.symm
          subst failed
          exact ⟨by simp [bind, Except.bind], by simp [bind, Except.bind]⟩
      | ok maximum =>
          rw [ok_bind rfl]
          cases estimated : responseTokens schema maximum with
          | none => exact ⟨by simp [okOrElse, bind, Except.bind], by simp [okOrElse, bind, Except.bind]⟩
          | some estimate =>
              obtain ⟨schema', same, there, least, most⟩ := maximumCharacters_ok.mp bound
              cases held.symm.trans same
              rw [okOrElse_some, ok_bind rfl]
              obtain ⟨r, available, allowance⟩ :=
                availableOutput_spec fewer capacityOnly context request resize
              rw [available, ok_bind rfl]
              cases r with
              | none => exact ⟨by simp [pure, Except.pure], by simp [pure, Except.pure]⟩
              | some capacity =>
                  by_cases fits : estimate ≤ capacity
                  · simp only [Nat.not_lt.mpr fits, gt_iff_lt, if_false, pure, Except.pure]
                    refine ⟨by simp, ?_⟩
                    intro admitted run
                    cases run
                    refine ⟨allowance, ⟨estimate, ⟨schema, maximum, held, bound, estimated⟩, fits⟩,
                      schema, maximum, estimate, capacity, held, bound, estimated, allowance,
                      fun _ => rfl, fun more => ?_⟩
                    omega
                  · simp only [Nat.lt_of_not_le fits, gt_iff_lt, if_true]
                    cases resize with
                    | false => exact ⟨by simp [pure, Except.pure], by simp [pure, Except.pure]⟩
                    | true =>
                        simp only [Bool.true_eq_false, if_false]
                        obtain ⟨r, searched, ceiling⟩ := ceiling_spec capacity most estimated
                        rw [searched, ok_bind rfl]
                        cases r with
                        | none => exact ⟨by simp [pure, Except.pure], by simp [pure, Except.pure]⟩
                        | some characters =>
                            have parts := ceiling
                            obtain ⟨one, inside, ⟨fitting, here, _⟩, _⟩ := parts
                            have shaped := shaped_withCeiling held there one
                              (Nat.le_trans inside most) here
                            obtain ⟨r, final, allowance'⟩ := availableOutput_spec fewer capacityOnly
                              context (withCeiling request characters) true
                            simp only
                            rw [final, ok_bind rfl]
                            cases r with
                            | none => exact ⟨by simp [pure, Except.pure], by simp [pure, Except.pure]⟩
                            | some finalCapacity =>
                                have again : responseTokens (setMaxLength characters schema) characters =
                                    some fitting := by
                                  rw [responseTokens_setMaxLength (hasCeiling there), here]
                                simp only [schemaOf_withCeiling held, okOrElse_some]
                                rw [ok_bind rfl, again, okOrElse_some, ok_bind rfl]
                                by_cases beyond : fitting > finalCapacity
                                · rw [if_pos beyond]
                                  exact ⟨by simp [pure, Except.pure], by simp [pure, Except.pure]⟩
                                · rw [if_neg beyond]
                                  refine ⟨by simp [pure, Except.pure], ?_⟩
                                  intro admitted run
                                  cases run
                                  exact ⟨allowance', ⟨fitting, shaped, Nat.le_of_not_lt beyond⟩, schema, maximum,
                                    estimate, capacity, held, bound, estimated, allowance,
                                    fun le => absurd le fits, fun _ => ⟨rfl, characters, ceiling, rfl⟩⟩

/-- What was held back for the feedback of a repair admits the repair. -/
theorem admitOutput_repair (fewer : AdmitsLess runtime) (capacityOnly : RefusesCapacityOnly runtime)
    (context : runtime.contextTokens .synthesize ≤ u32Max) {repair : ModelRequest}
    (first : admitOutput runtime request true = .ok (some admitted))
    (format : repair.outputFormat = admitted.outputFormat)
    (longer : ∀ tokens, Admits runtime admitted (tokens + repairFeedbackTokens) →
      Admits runtime repair tokens) :
    ∃ admittedRepair, admitOutput runtime repair false = .ok (some admittedRepair) := by
  obtain ⟨allowance, ⟨estimate, ⟨schema, maximum, held, bound, estimated⟩, fits⟩, _⟩ :=
    (@admitOutput_spec runtime request _ fewer capacityOnly context).2 admitted first
  have held' : schemaOf repair = some schema := by
    rw [← held]
    simp only [schemaOf, format]
  have bound' : maximumCharacters repair = .ok maximum := by
    obtain ⟨schema', same, rest⟩ := maximumCharacters_ok.mp bound
    cases held.symm.trans same
    exact maximumCharacters_ok.mpr ⟨schema, held', rest⟩
  obtain ⟨least, most, admits, _⟩ := allowance
  obtain ⟨r, available, allowance'⟩ :=
    availableOutput_spec fewer capacityOnly context repair false
  have room : admitted.maxOutputTokens ≤
      runtime.contextTokens .synthesize - tokenizerFramingReserveTokens - feedbackReserve false := by
    simp only [feedbackReserve, Bool.false_eq_true, if_false] at most ⊢
    omega
  obtain ⟨capacity, rfl, enough⟩ := allowance'.found_of least room (longer _ admits)
  refine ⟨{ repair with maxOutputTokens := capacity }, ?_⟩
  unfold admitOutput
  rw [held', okOrElse_some, ok_bind rfl, bound', ok_bind rfl, estimated, okOrElse_some,
    ok_bind rfl, available, ok_bind rfl]
  simp only
  rw [if_neg (by omega)]
  rfl

end Admission

/-- The allowance of an admitted request is the greatest that the runtime admits beneath its
context less the framing and the reserve; its ceiling is as it was or the greatest that fits;
and the permitted repair of a first request is admitted. -/
theorem output_admission_maximal {runtime : ModelRuntime} (fewer : AdmitsLess runtime)
    (capacityOnly : RefusesCapacityOnly runtime)
    (context : runtime.contextTokens .synthesize ≤ u32Max) (request : ModelRequest)
    (resize : Bool) :
    admitOutput runtime request resize ≠ .error .overflow ∧
    (∀ admitted, admitOutput runtime request resize = .ok (some admitted) →
      AdmittedOutput runtime request resize admitted) ∧
    ∀ admitted repair, admitOutput runtime request true = .ok (some admitted) →
      repair.outputFormat = admitted.outputFormat →
      (∀ tokens, Admits runtime admitted (tokens + repairFeedbackTokens) →
        Admits runtime repair tokens) →
      ∃ admittedRepair, admitOutput runtime repair false = .ok (some admittedRepair) := by
  have spec := @admitOutput_spec runtime request resize fewer capacityOnly context
  exact ⟨spec.1, spec.2, fun admitted repair first format longer =>
    admitOutput_repair fewer capacityOnly context first format longer⟩

/-! ## A runtime without a boundary of its own -/

def sampleSchema : Json :=
  .object [("properties", .object [("units", .object [
    ("maxItems", .unsigned 1),
    ("items", .object [("properties", .object [
      ("text", .object [("maxLength", .unsigned 100)]),
      ("source_ids", .object [("maxItems", .unsigned 1),
        ("items", .object [("enum", .array [.string "s1"])])])])])])])]

def sampleRequest : ModelRequest where
  stage := .synthesize
  ordinal := 0
  systemPrompt := "Summarize."
  userPrompt := "Sources."
  seed := 1
  maxOutputTokens := leastOutputTokens
  outputFormat := .jsonSchema "summary" sampleSchema

/-- The preflight that a runtime has when it defines none. -/
def inertRuntime : ModelRuntime where
  runtimeId _ := "runtime"
  modelId _ := "model"
  contextTokens _ := 3072
  preflightRequest _ := .ok ()
  generate _ _ := .error ⟨"MODEL_UNAVAILABLE", "No model", true⟩
  cancellationRequested _ := false

theorem inertRuntime_admitsLess : AdmitsLess inertRuntime := fun _ _ _ _ _ => rfl

theorem inertRuntime_refusesCapacityOnly : RefusesCapacityOnly inertRuntime := by
  intro request failure refused
  cases refused

/-- The greatest output beneath the context is not the greatest that such a runtime admits. -/
theorem inert_admission_bounded :
    AdmitsLess inertRuntime ∧ RefusesCapacityOnly inertRuntime ∧
    (admitOutput inertRuntime sampleRequest true).toOption.map
      (fun admitted => admitted.map (·.maxOutputTokens)) = some (some 2048) ∧
    Admits inertRuntime sampleRequest (2048 + repairFeedbackTokens + 1) := by
  refine ⟨inertRuntime_admitsLess, inertRuntime_refusesCapacityOnly, ?_, rfl⟩
  decide +kernel

/-! ## A runtime that counts -/

/-- A prompt of 1000 tokens in a context of 8192. -/
def countingRuntime : ModelRuntime where
  runtimeId _ := "runtime"
  modelId _ := "model"
  contextTokens _ := 8192
  preflightRequest request :=
    if 1000 + request.maxOutputTokens + tokenizerFramingReserveTokens ≤ 8192 then .ok ()
    else .error ⟨"MODEL_CONTEXT_EXCEEDED", "full", false⟩
  generate _ _ := .error ⟨"MODEL_UNAVAILABLE", "No model", true⟩
  cancellationRequested _ := false

theorem countingRuntime_admits {request : ModelRequest} {tokens : Nat} :
    Admits countingRuntime request tokens ↔ tokens ≤ 6680 := by
  have framing : tokenizerFramingReserveTokens = 512 := rfl
  by_cases room : tokens ≤ 6680
  · have within : 1000 + tokens + tokenizerFramingReserveTokens ≤ 8192 := by omega
    simp [Admits, countingRuntime, within, room]
  · have beyond : ¬ 1000 + tokens + tokenizerFramingReserveTokens ≤ 8192 := by omega
    simp [Admits, countingRuntime, beyond, room]

theorem countingRuntime_admitsLess : AdmitsLess countingRuntime := by
  intro request tokens fewer le admits
  rw [countingRuntime_admits] at admits ⊢
  omega

theorem countingRuntime_refusesCapacityOnly : RefusesCapacityOnly countingRuntime := by
  intro request failure refused
  simp only [countingRuntime] at refused
  split at refused
  · cases refused
  · cases refused
    decide

theorem output_admission_counted :
    admitOutput countingRuntime sampleRequest true ≠ .error .overflow ∧
    ∃ admitted, admitOutput countingRuntime sampleRequest true = .ok (some admitted) ∧
      admitted.maxOutputTokens = 6168 ∧
      AdmittedOutput countingRuntime sampleRequest true admitted := by
  have spec := output_admission_maximal countingRuntime_admitsLess
    countingRuntime_refusesCapacityOnly (by decide) sampleRequest true
  have run : (admitOutput countingRuntime sampleRequest true).toOption.map
      (fun admitted => admitted.map (·.maxOutputTokens)) = some (some 6168) := by decide +kernel
  refine ⟨spec.1, ?_⟩
  cases result : admitOutput countingRuntime sampleRequest true with
  | error halt =>
      rw [result] at run
      cases run
  | ok outcome =>
      rw [result] at run
      cases outcome with
      | none => cases run
      | some admitted =>
          refine ⟨admitted, rfl, ?_, spec.2.1 admitted result⟩
          simpa [Except.toOption] using run

end DocumentSummarizer.Coherent
