import DocumentSummarizer.Pipeline.SchemaMeaning

/-! # The decoder's schema

A schema is sent to the decoder without the keywords it does not enforce.
Leaving an assertion out admits more values only where the schemas around it
grow with their parts.
-/

namespace DocumentSummarizer.Pipeline.Gateway

/-! ## Places of subschemas -/

/-- How what a keyword accepts follows what its subschemas accept: the same way (`true`), the
other way round (`false`), both or neither. -/
def uses (bounded : Bool) (keyword : String) : List Bool :=
  if keyword = "not" then [false]
  else if keyword = "if" ∨ keyword = "oneOf" ∨ keyword = "contains" ∧ bounded = true then
    [true, false]
  else if keyword = "$defs" ∨ keyword = "definitions" then []
  else [true]

mutual

/-- Keywords that are left out stand where leaving them out makes the whole schema accept
more values (`positive`), or fewer. -/
def relaxable (positive : Bool) : Json → Bool
  | .object fields =>
    relaxableFields positive (numberUnder "maxContains" fields).isSome fields
  | .bool _ => true
  | .null => true
  | .unsigned _ => true
  | .number _ => true
  | .string _ => true
  | .array _ => true

def relaxableFields (positive bounded : Bool) : List (String × Json) → Bool
  | [] => true
  | (keyword, value) :: rest =>
    (positive || keepsKeyword keyword value) && relaxableField positive bounded keyword value &&
      relaxableFields positive bounded rest

def relaxableField (positive bounded : Bool) (keyword : String) : Json → Bool
  | .object fields =>
    if keyword ∈ namedSchemaKeywords then
      (uses bounded keyword).all fun same => relaxableNamed (positive == same) fields
    else if keyword ∈ childKeywords then
      (uses bounded keyword).all fun same =>
        relaxableFields (positive == same) (numberUnder "maxContains" fields).isSome fields
    else true
  | .array items =>
    if keyword ∈ childrenKeywords then
      (uses bounded keyword).all fun same => relaxableItems (positive == same) items
    else true
  | .bool _ => true
  | .null => true
  | .unsigned _ => true
  | .number _ => true
  | .string _ => true

def relaxableNamed (positive : Bool) : List (String × Json) → Bool
  | [] => true
  | (_, child) :: rest => relaxable positive child && relaxableNamed positive rest

def relaxableItems (positive : Bool) : List Json → Bool
  | [] => true
  | child :: rest => relaxable positive child && relaxableItems positive rest

end

mutual

/-- No schema within a schema has a keyword that is left out. -/
def spared : Json → Bool
  | .object fields => sparedFields fields
  | .bool _ => true
  | .null => true
  | .unsigned _ => true
  | .number _ => true
  | .string _ => true
  | .array _ => true

def sparedFields : List (String × Json) → Bool
  | [] => true
  | (keyword, value) :: rest =>
    keepsKeyword keyword value && sparedField keyword value && sparedFields rest

def sparedField (keyword : String) : Json → Bool
  | .object fields =>
    if keyword ∈ namedSchemaKeywords then sparedNamed fields
    else if keyword ∈ childKeywords then sparedFields fields
    else true
  | .array items => if keyword ∈ childrenKeywords then sparedItems items else true
  | .bool _ => true
  | .null => true
  | .unsigned _ => true
  | .number _ => true
  | .string _ => true

def sparedNamed : List (String × Json) → Bool
  | [] => true
  | (_, child) :: rest => spared child && sparedNamed rest

def sparedItems : List Json → Bool
  | [] => true
  | child :: rest => spared child && sparedItems rest

end

/-! ## Schemas that stay as they are -/

mutual

theorem decoderCompatible_spared (schema : Json) (clear : spared schema = true) :
    decoderCompatible schema = schema := by
  cases schema with
  | object fields =>
      rw [spared] at clear
      rw [decoderCompatible, projectFields_spared fields clear]
  | _ => rfl

theorem projectFields_spared (fields : List (String × Json)) (clear : sparedFields fields = true) :
    projectFields fields = fields := by
  cases fields with
  | nil => rfl
  | cons field rest =>
      obtain ⟨keyword, value⟩ := field
      simp only [sparedFields, Bool.and_eq_true] at clear
      rw [projectFields, if_pos clear.1.1, projectField_spared keyword value clear.1.2,
        projectFields_spared rest clear.2]

theorem projectField_spared (keyword : String) (value : Json)
    (clear : sparedField keyword value = true) : projectField keyword value = value := by
  cases value with
  | object fields =>
      simp only [sparedField] at clear
      rw [projectField]
      split at clear
      · rw [if_pos ‹_›, projectNamed_spared fields clear]
      · rw [if_neg ‹_›]
        split at clear
        · rw [if_pos ‹_›, projectFields_spared fields clear]
        · rw [if_neg ‹_›]
  | array items =>
      simp only [sparedField] at clear
      rw [projectField]
      split at clear
      · rw [if_pos ‹_›, projectItems_spared items clear]
      · rw [if_neg ‹_›]
  | _ => rfl

theorem projectNamed_spared (fields : List (String × Json)) (clear : sparedNamed fields = true) :
    projectNamed fields = fields := by
  cases fields with
  | nil => rfl
  | cons field rest =>
      obtain ⟨name, child⟩ := field
      simp only [sparedNamed, Bool.and_eq_true] at clear
      rw [projectNamed, decoderCompatible_spared child clear.1, projectNamed_spared rest clear.2]

theorem projectItems_spared (items : List Json) (clear : sparedItems items = true) :
    projectItems items = items := by
  cases items with
  | nil => rfl
  | cons child rest =>
      simp only [sparedItems, Bool.and_eq_true] at clear
      rw [projectItems, decoderCompatible_spared child clear.1, projectItems_spared rest clear.2]

end

@[simp]
theorem keepsKeyword_projectField (keyword : String) (value : Json) :
    keepsKeyword keyword (projectField keyword value) = keepsKeyword keyword value := by
  cases value with
  | object fields =>
      rw [projectField]
      split
      · rfl
      · split <;> rfl
  | array items =>
      rw [projectField]
      split <;> rfl
  | _ => rfl

mutual

theorem spared_decoderCompatible (schema : Json) : spared (decoderCompatible schema) = true := by
  cases schema with
  | object fields => rw [decoderCompatible, spared, spared_projectFields fields]
  | _ => rfl

theorem spared_projectFields (fields : List (String × Json)) :
    sparedFields (projectFields fields) = true := by
  cases fields with
  | nil => rfl
  | cons field rest =>
      obtain ⟨keyword, value⟩ := field
      rw [projectFields]
      split
      · next kept =>
          rw [sparedFields, keepsKeyword_projectField, kept, spared_projectField keyword value,
            spared_projectFields rest]
          rfl
      · exact spared_projectFields rest

theorem spared_projectField (keyword : String) (value : Json) :
    sparedField keyword (projectField keyword value) = true := by
  cases value with
  | object fields =>
      rw [projectField]
      split
      · next named => rw [sparedField, if_pos named, spared_projectNamed fields]
      · next unnamed =>
          split
          · next child =>
              rw [sparedField, if_neg unnamed, if_pos child, spared_projectFields fields]
          · next plain => rw [sparedField, if_neg unnamed, if_neg plain]
  | array items =>
      rw [projectField]
      split
      · next listed => rw [sparedField, if_pos listed, spared_projectItems items]
      · next plain => rw [sparedField, if_neg plain]
  | _ => rfl

theorem spared_projectNamed (fields : List (String × Json)) :
    sparedNamed (projectNamed fields) = true := by
  cases fields with
  | nil => rfl
  | cons field rest =>
      rw [projectNamed, sparedNamed, spared_decoderCompatible field.2, spared_projectNamed rest]
      rfl

theorem spared_projectItems (items : List Json) : sparedItems (projectItems items) = true := by
  cases items with
  | nil => rfl
  | cons child rest =>
      rw [projectItems, sparedItems, spared_decoderCompatible child, spared_projectItems rest]
      rfl

end

/-! ## What keywords follow -/

/-- One schema accepts at least what another one does, or at most that. -/
def Relaxed : Bool → Acceptance → Acceptance → Prop
  | true, accepted, accepted' => ∀ value, accepted value = true → accepted' value = true
  | false, accepted, accepted' => ∀ value, accepted' value = true → accepted value = true

theorem Relaxed.refl : (same : Bool) → (accepted : Acceptance) → Relaxed same accepted accepted
  | true, _ => fun _ holds => holds
  | false, _ => fun _ holds => holds

/-- The subschemas of a keyword changed the way its place asks for. -/
def Fits (positive : Bool) (ways : List Bool) (accepted accepted' : Acceptance) : Prop :=
  ∀ same ∈ ways, Relaxed (positive == same) accepted accepted'

inductive OperandFits (positive : Bool) (ways : List Bool) : Operand → Operand → Prop
  | plain (argument : Json) : OperandFits positive ways (.plain argument) (.plain argument)
  | child : Fits positive ways accepted accepted' →
      OperandFits positive ways (.child accepted) (.child accepted')
  | named : List.Forall₂ (fun child child' =>
        child.1 = child'.1 ∧ Fits positive ways child.2 child'.2) children children' →
      OperandFits positive ways (.named children) (.named children')
  | listed : List.Forall₂ (Fits positive ways) children children' →
      OperandFits positive ways (.listed children) (.listed children')

structure SiblingsFit (positive : Bool) (beside beside' : Siblings) : Prop where
  leading : beside.leading = beside'.leading
  properties : beside.properties = beside'.properties
  patterns : beside.patterns = beside'.patterns
  minContains : beside.minContains = beside'.minContains
  maxContains : beside.maxContains = beside'.maxContains
  thenFits : Relaxed positive beside.thenAccepted beside'.thenAccepted
  elseFits : Relaxed positive beside.elseAccepted beside'.elseAccepted

section Symmetry

variable {ways : List Bool} {accepted accepted' : Acceptance} {operand operand' : Operand}
  {beside beside' : Siblings}

theorem Fits.symm (fits : Fits false ways accepted accepted') :
    Fits true ways accepted' accepted := by
  intro same mem
  have relaxed := fits same mem
  cases same <;> exact relaxed

theorem OperandFits.symm (fits : OperandFits false ways operand operand') :
    OperandFits true ways operand' operand := by
  cases fits with
  | plain argument => exact .plain argument
  | child fits => exact .child fits.symm
  | named fits =>
      refine .named (fits.flip.imp ?_)
      rintro child child' ⟨same, fits⟩
      exact ⟨same.symm, fits.symm⟩
  | listed fits => exact .listed (fits.flip.imp fun _ _ => Fits.symm)

theorem SiblingsFit.symm (fits : SiblingsFit false beside beside') :
    SiblingsFit true beside' beside :=
  ⟨fits.leading.symm, fits.properties.symm, fits.patterns.symm, fits.minContains.symm,
    fits.maxContains.symm, fits.thenFits, fits.elseFits⟩

end Symmetry

section Keywords

variable {vocabulary : Vocabulary} {beside beside' : Siblings} {keyword : String}
  {accepted accepted' : Acceptance} {value : Json}

theorem Fits.of_use (fits : Fits true ways accepted accepted') (mem : true ∈ ways) :
    ∀ value, accepted value = true → accepted' value = true :=
  fits true mem

theorem Fits.eq (fits : Fits true ways accepted accepted') (mem : true ∈ ways)
    (mem' : false ∈ ways) : accepted = accepted' := by
  funext value
  rw [Bool.eq_iff_iff]
  exact ⟨fits true mem value, fits false mem' value⟩

theorem declares_eq (fits : SiblingsFit positive beside beside') (name : String) :
    beside.declares vocabulary name = beside'.declares vocabulary name := by
  simp only [Siblings.declares, fits.properties, fits.patterns]

theorem counts_mono (fits : SiblingsFit true beside beside')
    (related : Fits true (uses beside.maxContains.isSome "contains") accepted accepted')
    (items : List Json) (counted : beside.counts (items.countP accepted) = true) :
    beside'.counts (items.countP accepted') = true := by
  cases bound : beside.maxContains with
  | none =>
      have grows : items.countP accepted ≤ items.countP accepted' :=
        List.countP_mono_left fun item _ => related.of_use (by simp [uses, bound]) item
      have unbounded : beside'.maxContains = none := by rw [← fits.maxContains, bound]
      simp only [Siblings.counts, bound, unbounded, ← fits.minContains, Option.all_none,
        Bool.and_true, decide_eq_true_eq] at counted ⊢
      exact le_trans counted grows
  | some maximum =>
      have same : accepted = accepted' :=
        related.eq (by simp [uses, bound]) (by simp [uses, bound])
      simpa only [Siblings.counts, ← same, ← fits.minContains, ← fits.maxContains] using counted

theorem childHolds_mono (fits : SiblingsFit true beside beside')
    (related : Fits true (uses beside.maxContains.isSome keyword) accepted accepted')
    (holds : childHolds vocabulary beside keyword accepted value = true) :
    childHolds vocabulary beside' keyword accepted' value = true := by
  unfold childHolds at holds ⊢
  split at holds
  · next is =>
      subst is
      simp only [if_true, List.all_eq_true, ← fits.leading] at holds ⊢
      exact fun item mem => related.of_use (by simp [uses]) item (holds item mem)
  rw [if_neg ‹_›]
  split at holds
  · next is =>
      subst is
      simp only [if_true, Bool.or_eq_true] at holds ⊢
      exact holds.imp_right (counts_mono fits related value.items)
  rw [if_neg ‹_›]
  split at holds
  · next is =>
      subst is
      simp only [if_true, List.all_eq_true, Bool.or_eq_true, ← declares_eq fits] at holds ⊢
      exact fun field mem => (holds field mem).imp_right (related.of_use (by simp [uses]) field.2)
  rw [if_neg ‹_›]
  split at holds
  · next is =>
      subst is
      simp only [if_true, List.all_eq_true] at holds ⊢
      exact fun field mem => related.of_use (by simp [uses]) _ (holds field mem)
  rw [if_neg ‹_›]
  split at holds
  · next is =>
      subst is
      have back : Relaxed false accepted accepted' := related false (by simp [uses])
      simp only [if_true, Bool.not_eq_true', Bool.eq_false_iff] at holds ⊢
      exact fun accepts => holds (back value accepts)
  rw [if_neg ‹_›]
  split at holds
  · next is =>
      subst is
      have same : accepted = accepted' := related.eq (by simp [uses]) (by simp [uses])
      rw [if_pos rfl, ← same]
      split
      · next tested => exact fits.thenFits value (by rwa [if_pos tested] at holds)
      · next tested => exact fits.elseFits value (by rwa [if_neg tested] at holds)
  rw [if_neg ‹_›]

theorem all_matched {α β : Type} {related : α → β → Prop} {holds : α → Bool} {holds' : β → Bool}
    (imp : ∀ a b, related a b → holds a = true → holds' b = true) {as : List α} {bs : List β}
    (matched : List.Forall₂ related as bs) (all : as.all holds = true) : bs.all holds' = true := by
  induction matched with
  | nil => rfl
  | cons pair _ ih =>
      rw [List.all_cons, Bool.and_eq_true] at all ⊢
      exact ⟨imp _ _ pair all.1, ih all.2⟩

theorem namedHold_mono {children children' : List (String × Acceptance)}
    (related : List.Forall₂ (fun child child' =>
      child.1 = child'.1 ∧ Fits true (uses bounded keyword) child.2 child'.2) children children')
    (holds : namedHold vocabulary keyword children value = true) :
    namedHold vocabulary keyword children' value = true := by
  unfold namedHold at holds ⊢
  split at holds
  · next is =>
      subst is
      rw [if_pos rfl]
      refine all_matched ?_ related holds
      rintro child child' ⟨same, fits⟩ all
      simp only [List.all_eq_true, Bool.or_eq_true, ← same] at all ⊢
      exact fun field mem => (all field mem).imp_right (fits.of_use (by simp [uses]) field.2)
  rw [if_neg ‹_›]
  split at holds
  · next is =>
      subst is
      rw [if_pos rfl]
      refine all_matched ?_ related holds
      rintro child child' ⟨same, fits⟩ all
      simp only [List.all_eq_true, Bool.or_eq_true, ← same] at all ⊢
      exact fun field mem => (all field mem).imp_right (fits.of_use (by simp [uses]) field.2)
  rw [if_neg ‹_›]

variable {children children' : List Acceptance}

theorem zip_mono {ways : List Bool} (used : true ∈ ways)
    (related : List.Forall₂ (Fits true ways) children children') (items : List Json)
    (all : ((children.zip items).all fun paired => paired.1 paired.2) = true) :
    ((children'.zip items).all fun paired => paired.1 paired.2) = true := by
  induction related generalizing items with
  | nil => rfl
  | cons fits _ ih =>
      cases items with
      | nil => rfl
      | cons item items =>
          rw [List.zip_cons_cons, List.all_cons, Bool.and_eq_true] at all ⊢
          exact ⟨fits.of_use used item all.1, ih items all.2⟩

theorem any_matched {ways : List Bool} (used : true ∈ ways)
    (related : List.Forall₂ (Fits true ways) children children') (value : Json)
    (any : children.any (· value) = true) : children'.any (· value) = true := by
  induction related with
  | nil => exact any
  | cons fits _ ih =>
      rw [List.any_cons, Bool.or_eq_true] at any ⊢
      exact any.imp (fits.of_use used value) ih

theorem listedHold_mono
    (related : List.Forall₂ (Fits true (uses bounded keyword)) children children')
    (holds : listedHold keyword children value = true) :
    listedHold keyword children' value = true := by
  unfold listedHold at holds ⊢
  split at holds
  · next is =>
      subst is
      rw [if_pos rfl]
      exact zip_mono (by simp [uses]) related value.items holds
  rw [if_neg ‹_›]
  split at holds
  · next is =>
      subst is
      rw [if_pos rfl]
      exact all_matched (fun _ _ fits => fits.of_use (by simp [uses]) value) related holds
  rw [if_neg ‹_›]
  split at holds
  · next is =>
      subst is
      rw [if_pos rfl]
      exact any_matched (by simp [uses]) related value holds
  rw [if_neg ‹_›]
  split at holds
  · next is =>
      subst is
      have same : List.Forall₂ (· = ·) children children' :=
        related.imp fun _ _ fits => fits.eq (by simp [uses]) (by simp [uses])
      rw [List.forall₂_eq_eq_eq] at same
      rwa [if_pos rfl, ← same]
  rw [if_neg ‹_›]

theorem holds_mono {operand operand' : Operand} (fits : SiblingsFit true beside beside')
    (related : OperandFits true (uses beside.maxContains.isSome keyword) operand operand')
    (holds : operand.holds vocabulary beside keyword value = true) :
    operand'.holds vocabulary beside' keyword value = true := by
  cases related with
  | plain argument => exact holds
  | child related => exact childHolds_mono fits related holds
  | named related => exact namedHold_mono related holds
  | listed related => exact listedHold_mono related holds

end Keywords

/-! ## Projected fields -/

theorem lookup_projectFields {keyword : String} (unique : keyword ≠ "uniqueItems")
    (length : keyword ≠ "maxLength") (fields : List (String × Json)) :
    (projectFields fields).lookup keyword = (fields.lookup keyword).map (projectField keyword) := by
  induction fields with
  | nil => rfl
  | cons field rest ih =>
      obtain ⟨name, value⟩ := field
      rw [projectFields]
      by_cases same : keyword = name
      · subst same
        have kept : keepsKeyword keyword value = true := by
          unfold keepsKeyword
          cases value <;> simp [unique, length]
        rw [if_pos kept, List.lookup_cons_self, List.lookup_cons_self]
        rfl
      · have other : (keyword == name) = false := beq_eq_false_iff_ne.mpr same
        split <;> simp [List.lookup_cons, other, ih]

theorem lookup_operands (vocabulary : Vocabulary) (keyword : String)
    (fields : List (String × Json)) :
    (operands vocabulary fields).lookup keyword =
      (fields.lookup keyword).map (operand vocabulary keyword) := by
  induction fields with
  | nil => rfl
  | cons field rest ih =>
      obtain ⟨name, value⟩ := field
      rw [operands]
      by_cases same : keyword = name
      · subst same
        rw [List.lookup_cons_self, List.lookup_cons_self]
        rfl
      · have other : (keyword == name) = false := beq_eq_false_iff_ne.mpr same
        simp [List.lookup_cons, other, ih]

theorem projectNamed_names (fields : List (String × Json)) :
    (projectNamed fields).map Prod.fst = fields.map Prod.fst := by
  induction fields with
  | nil => rfl
  | cons field rest ih => rw [projectNamed, List.map_cons, List.map_cons, ih]

theorem projectItems_length (items : List Json) : (projectItems items).length = items.length := by
  induction items with
  | nil => rfl
  | cons child rest ih => rw [projectItems, List.length_cons, List.length_cons, ih]

theorem mem_projectFields {field : String × Json} {fields : List (String × Json)} :
    field ∈ projectFields fields ↔ ∃ field' ∈ fields, keepsKeyword field'.1 field'.2 = true ∧
      field = (field'.1, projectField field'.1 field'.2) := by
  induction fields with
  | nil => simp [projectFields]
  | cons first rest ih =>
      obtain ⟨keyword, value⟩ := first
      rw [projectFields]
      split
      · next kept => simp [ih, kept]
      · next dropped => simp [ih, dropped]

section Fields

variable {vocabulary : Vocabulary} {positive bounded : Bool} {keyword : String}
  {fields : List (String × Json)}

theorem projectField_object (keyword : String) (fields : List (String × Json)) :
    ∃ fields', projectField keyword (.object fields) = .object fields' := by
  rw [projectField]
  split
  · exact ⟨_, rfl⟩
  · split <;> exact ⟨_, rfl⟩

theorem projectField_array (keyword : String) (items : List Json) :
    ∃ items', projectField keyword (.array items) = .array items' := by
  rw [projectField]
  split <;> exact ⟨_, rfl⟩

theorem numberUnder_projectFields (unique : keyword ≠ "uniqueItems")
    (length : keyword ≠ "maxLength") (fields : List (String × Json)) :
    numberUnder keyword (projectFields fields) = numberUnder keyword fields := by
  rw [numberUnder, lookup_projectFields unique length, numberUnder]
  cases fields.lookup keyword with
  | none => rfl
  | some value =>
      cases value with
      | object children =>
          obtain ⟨children', same⟩ := projectField_object keyword children
          rw [Option.map_some, same]
      | array children =>
          obtain ⟨children', same⟩ := projectField_array keyword children
          rw [Option.map_some, same]
      | _ => rfl

theorem namesUnder_projectFields (unique : keyword ≠ "uniqueItems")
    (length : keyword ≠ "maxLength") (named : keyword ∈ namedSchemaKeywords)
    (fields : List (String × Json)) :
    namesUnder keyword (projectFields fields) = namesUnder keyword fields := by
  rw [namesUnder, lookup_projectFields unique length, namesUnder]
  cases fields.lookup keyword with
  | none => rfl
  | some value =>
      cases value with
      | object children =>
          rw [Option.map_some, projectField, if_pos named]
          exact projectNamed_names children
      | array children =>
          obtain ⟨children', same⟩ := projectField_array keyword children
          rw [Option.map_some, same]
      | _ => rfl

theorem countUnder_projectFields (unique : keyword ≠ "uniqueItems")
    (length : keyword ≠ "maxLength") (listed : keyword ∈ childrenKeywords)
    (fields : List (String × Json)) :
    countUnder keyword (projectFields fields) = countUnder keyword fields := by
  rw [countUnder, lookup_projectFields unique length, countUnder]
  cases fields.lookup keyword with
  | none => rfl
  | some value =>
      cases value with
      | object children =>
          obtain ⟨children', same⟩ := projectField_object keyword children
          rw [Option.map_some, same]
      | array children =>
          rw [Option.map_some, projectField, if_pos listed]
          exact projectItems_length children
      | _ => rfl

/-- Each keyword of a schema and its projection fit. -/
def FieldsFit (vocabulary : Vocabulary) (positive bounded : Bool)
    (fields : List (String × Json)) : Prop :=
  ∀ field ∈ fields, (positive = true ∨ keepsKeyword field.1 field.2 = true) ∧
    OperandFits positive (uses bounded field.1) (operand vocabulary field.1 field.2)
      (operand vocabulary field.1 (projectField field.1 field.2))

theorem acceptedUnder_fits (fit : FieldsFit vocabulary positive bounded fields)
    (unique : keyword ≠ "uniqueItems") (length : keyword ≠ "maxLength")
    (follows : true ∈ uses bounded keyword) :
    Relaxed positive (acceptedUnder keyword (operands vocabulary fields))
      (acceptedUnder keyword (operands vocabulary (projectFields fields))) := by
  rw [acceptedUnder, lookup_operands, acceptedUnder, lookup_operands,
    lookup_projectFields unique length]
  cases found : fields.lookup keyword with
  | none => exact .refl positive _
  | some value =>
      obtain ⟨front, back, split, -⟩ := List.lookup_eq_some_iff.mp found
      have fits := (fit (keyword, value) (by simp [split])).2
      simp only [Option.map_some]
      generalize operand vocabulary keyword value = before,
        operand vocabulary keyword (projectField keyword value) = after at fits ⊢
      cases fits with
      | plain argument => exact .refl positive _
      | child related => simpa using related true follows
      | named related => exact .refl positive _
      | listed related => exact .refl positive _

theorem siblings_fit (fit : FieldsFit vocabulary positive bounded fields) :
    SiblingsFit positive (siblings fields (operands vocabulary fields))
      (siblings (projectFields fields) (operands vocabulary (projectFields fields))) where
  leading := (countUnder_projectFields (by decide) (by decide) (by decide) fields).symm
  properties := (namesUnder_projectFields (by decide) (by decide) (by decide) fields).symm
  patterns := (namesUnder_projectFields (by decide) (by decide) (by decide) fields).symm
  minContains := (numberUnder_projectFields (by decide) (by decide) fields).symm
  maxContains := (numberUnder_projectFields (by decide) (by decide) fields).symm
  thenFits := acceptedUnder_fits fit (by decide) (by decide) (by simp [uses])
  elseFits := acceptedUnder_fits fit (by decide) (by decide) (by simp [uses])

/-- A schema whose keywords all fit accepts what they make it accept. -/
theorem satisfied_fits
    (fit : FieldsFit vocabulary positive (numberUnder "maxContains" fields).isSome fields) :
    Relaxed positive (satisfied vocabulary fields (operands vocabulary fields))
      (satisfied vocabulary (projectFields fields)
        (operands vocabulary (projectFields fields))) := by
  have beside := siblings_fit fit
  cases positive with
  | true =>
      intro value all
      simp only [satisfied, operands_eq_map, List.all_map, List.all_eq_true] at all ⊢
      intro field mem
      obtain ⟨original, mem', -, rfl⟩ := mem_projectFields.mp mem
      have holds := all original mem'
      simp only [Function.comp_apply, ← operands_eq_map] at holds ⊢
      exact holds_mono beside (fit original mem').2 holds
  | false =>
      intro value all
      simp only [satisfied, operands_eq_map, List.all_map, List.all_eq_true] at all ⊢
      intro field mem
      obtain ⟨kept, related⟩ := fit field mem
      have kept := kept.resolve_left (by simp)
      have holds := all _ (mem_projectFields.mpr ⟨field, mem, kept, rfl⟩)
      simp only [Function.comp_apply, ← operands_eq_map] at holds ⊢
      refine holds_mono beside.symm ?_ holds
      have bound : (siblings (projectFields fields)
          (operands vocabulary (projectFields fields))).maxContains =
          numberUnder "maxContains" fields := beside.maxContains.symm
      rw [bound]
      exact related.symm

end Fields

/-! ## Whole schemas -/

section Schemas

variable {vocabulary : Vocabulary}

mutual

theorem accepts_fits (positive : Bool) (schema : Json)
    (relaxed : relaxable positive schema = true) :
    Relaxed positive (accepts vocabulary schema)
      (accepts vocabulary (decoderCompatible schema)) := by
  cases schema with
  | object fields =>
      rw [relaxable] at relaxed
      rw [decoderCompatible, accepts, accepts]
      exact satisfied_fits (fields_fit positive _ fields relaxed)
  | _ => exact .refl positive _

theorem fields_fit (positive bounded : Bool) (fields : List (String × Json))
    (relaxed : relaxableFields positive bounded fields = true) :
    FieldsFit vocabulary positive bounded fields := by
  cases fields with
  | nil => exact fun _ mem => absurd mem List.not_mem_nil
  | cons field rest =>
      obtain ⟨keyword, value⟩ := field
      simp only [relaxableFields, Bool.and_eq_true, Bool.or_eq_true] at relaxed
      intro field mem
      obtain rfl | mem := List.mem_cons.mp mem
      · exact ⟨relaxed.1.1, operand_fits positive bounded keyword value relaxed.1.2⟩
      · exact fields_fit positive bounded rest relaxed.2 field mem

theorem operand_fits (positive bounded : Bool) (keyword : String) (value : Json)
    (relaxed : relaxableField positive bounded keyword value = true) :
    OperandFits positive (uses bounded keyword) (operand vocabulary keyword value)
      (operand vocabulary keyword (projectField keyword value)) := by
  cases value with
  | object fields =>
      rw [relaxableField] at relaxed
      rw [projectField]
      split at relaxed
      · next named =>
          rw [if_pos named, operand, if_pos named, operand, if_pos named]
          simp only [List.all_eq_true] at relaxed
          exact .named (named_fit positive (uses bounded keyword) fields relaxed)
      · next unnamed =>
          rw [if_neg unnamed]
          split at relaxed
          · next child =>
              rw [if_pos child, operand, if_neg unnamed, if_pos child, operand, if_neg unnamed,
                if_pos child]
              simp only [List.all_eq_true] at relaxed
              exact .child fun same mem => satisfied_fits (fields_fit _ _ fields (relaxed same mem))
          · next plain =>
              rw [if_neg plain, operand, if_neg unnamed, if_neg plain]
              exact .plain _
  | array items =>
      rw [relaxableField] at relaxed
      rw [projectField]
      split at relaxed
      · next listed =>
          rw [if_pos listed, operand, if_pos listed, operand, if_pos listed]
          simp only [List.all_eq_true] at relaxed
          exact .listed (listed_fit positive (uses bounded keyword) items relaxed)
      · next plain =>
          rw [if_neg plain, operand, if_neg plain]
          exact .plain _
  | bool allowed =>
      rw [projectField, operand]
      split
      · exact .child fun same _ => .refl _ _
      · exact .plain _
  | _ => exact .plain _

theorem named_fit (positive : Bool) (ways : List Bool) (fields : List (String × Json))
    (relaxed : ∀ same ∈ ways, relaxableNamed (positive == same) fields = true) :
    List.Forall₂ (fun child child' =>
      child.1 = child'.1 ∧ Fits positive ways child.2 child'.2)
      (acceptsNamed vocabulary fields) (acceptsNamed vocabulary (projectNamed fields)) := by
  cases fields with
  | nil => exact .nil
  | cons field rest =>
      obtain ⟨name, child⟩ := field
      simp only [relaxableNamed, Bool.and_eq_true] at relaxed
      rw [projectNamed, acceptsNamed, acceptsNamed]
      exact .cons ⟨rfl, fun same mem => accepts_fits _ child (relaxed same mem).1⟩
        (named_fit positive ways rest fun same mem => (relaxed same mem).2)

theorem listed_fit (positive : Bool) (ways : List Bool) (items : List Json)
    (relaxed : ∀ same ∈ ways, relaxableItems (positive == same) items = true) :
    List.Forall₂ (Fits positive ways) (acceptsListed vocabulary items)
      (acceptsListed vocabulary (projectItems items)) := by
  cases items with
  | nil => exact .nil
  | cons child rest =>
      simp only [relaxableItems, Bool.and_eq_true] at relaxed
      rw [projectItems, acceptsListed, acceptsListed]
      exact .cons (fun same mem => accepts_fits _ child (relaxed same mem).1)
        (listed_fit positive ways rest fun same mem => (relaxed same mem).2)

end

/-- Where its assertions are left out in positive places only, a projected schema accepts
what the schema accepts. Projecting twice is projecting once, and a schema without the
keywords that are left out stays as it is. -/
theorem decoderCompatible_relaxes (vocabulary : Vocabulary) (schema : Json) :
    (relaxable true schema = true → ∀ value, accepts vocabulary schema value = true →
      accepts vocabulary (decoderCompatible schema) value = true) ∧
      decoderCompatible (decoderCompatible schema) = decoderCompatible schema ∧
      (spared schema = true → decoderCompatible schema = schema) :=
  ⟨fun relaxed => accepts_fits true schema relaxed,
    decoderCompatible_spared _ (spared_decoderCompatible schema),
    decoderCompatible_spared schema⟩

theorem distinct_property_relaxed :
    accepts sparedVocabulary
      (decoderCompatible (.object [("properties", .object [("uniqueItems", .object
        [("uniqueItems", .bool true)])])]))
      (.object [("uniqueItems", .array [.bool true, .null])]) = true :=
  (decoderCompatible_relaxes sparedVocabulary (.object [("properties", .object [("uniqueItems",
    .object [("uniqueItems", .bool true)])])])).1 rfl _ rfl

end Schemas

/-- Under `not`, a schema without its assertion excludes more. -/
theorem not_distinct_tightens :
    accepts sparedVocabulary (.object [("not", .object [("uniqueItems", .bool true)])])
        (.array [.null, .null]) = true ∧
      accepts sparedVocabulary
        (decoderCompatible (.object [("not", .object [("uniqueItems", .bool true)])]))
        (.array [.null, .null]) = false := by
  decide

end DocumentSummarizer.Pipeline.Gateway
