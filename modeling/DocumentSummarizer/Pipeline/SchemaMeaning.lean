import DocumentSummarizer.Pipeline.GatewayWire

/-! # Meaning of JSON schemas

What a schema accepts. The keywords with schemas in them are read here; the
other ones, and regular expressions, are whatever a vocabulary says they are.
-/

namespace DocumentSummarizer.Pipeline.Gateway

/-- What a schema accepts. -/
abbrev Acceptance := Json → Bool

structure Vocabulary where
  /-- Whether a keyword with its argument holds of a value. -/
  asserts : String → Json → Acceptance
  matchesPattern : String → String → Bool

/-- The argument of a keyword, with the schemas in it read. -/
inductive Operand where
  | plain (argument : Json)
  | child (accepted : Acceptance)
  | named (children : List (String × Acceptance))
  | listed (children : List Acceptance)

/-- What a keyword reads of the keywords beside it. -/
structure Siblings where
  leading : Nat
  properties : List String
  patterns : List String
  minContains : Option Nat
  maxContains : Option Nat
  thenAccepted : Acceptance
  elseAccepted : Acceptance

def Json.items : Json → List Json
  | .array items => items
  | _ => []

def Json.fields : Json → List (String × Json)
  | .object fields => fields
  | _ => []

def Json.isArray : Json → Bool
  | .array _ => true
  | _ => false

/-! ## Keywords -/

def namesUnder (keyword : String) (fields : List (String × Json)) : List String :=
  match fields.lookup keyword with
  | some (.object children) => children.map Prod.fst
  | _ => []

def countUnder (keyword : String) (fields : List (String × Json)) : Nat :=
  match fields.lookup keyword with
  | some (.array children) => children.length
  | _ => 0

def numberUnder (keyword : String) (fields : List (String × Json)) : Option Nat :=
  match fields.lookup keyword with
  | some (.unsigned number) => some number
  | _ => none

def acceptedUnder (keyword : String) (operands : List (String × Operand)) : Acceptance :=
  match operands.lookup keyword with
  | some (.child accepted) => accepted
  | _ => fun _ => true

def siblings (fields : List (String × Json)) (operands : List (String × Operand)) : Siblings where
  leading := countUnder "prefixItems" fields
  properties := namesUnder "properties" fields
  patterns := namesUnder "patternProperties" fields
  minContains := numberUnder "minContains" fields
  maxContains := numberUnder "maxContains" fields
  thenAccepted := acceptedUnder "then" operands
  elseAccepted := acceptedUnder "else" operands

def Siblings.declares (beside : Siblings) (vocabulary : Vocabulary) (name : String) : Bool :=
  beside.properties.contains name ||
    beside.patterns.any fun pattern => vocabulary.matchesPattern pattern name

/-- The number of matching items lies within the bounds beside `contains`. -/
def Siblings.counts (beside : Siblings) (count : Nat) : Bool :=
  beside.minContains.getD 1 ≤ count && beside.maxContains.all (count ≤ ·)

/-- `then` and `else` are read by the `if` beside them. -/
def childHolds (vocabulary : Vocabulary) (beside : Siblings) (keyword : String)
    (accepted : Acceptance) (value : Json) : Bool :=
  if keyword = "items" then (value.items.drop beside.leading).all accepted
  else if keyword = "contains" then
    !value.isArray || beside.counts (value.items.countP accepted)
  else if keyword = "additionalProperties" then
    value.fields.all fun field => beside.declares vocabulary field.1 || accepted field.2
  else if keyword = "propertyNames" then value.fields.all fun field => accepted (.string field.1)
  else if keyword = "not" then !accepted value
  else if keyword = "if" then
    if accepted value then beside.thenAccepted value else beside.elseAccepted value
  else true

/-- `$defs` and `definitions` ask nothing of a value. -/
def namedHold (vocabulary : Vocabulary) (keyword : String)
    (children : List (String × Acceptance)) (value : Json) : Bool :=
  if keyword = "properties" then
    children.all fun child => value.fields.all fun field => field.1 != child.1 || child.2 field.2
  else if keyword = "patternProperties" then
    children.all fun child => value.fields.all fun field =>
      !vocabulary.matchesPattern child.1 field.1 || child.2 field.2
  else true

def listedHold (keyword : String) (children : List Acceptance) (value : Json) : Bool :=
  if keyword = "prefixItems" then
    (children.zip value.items).all fun paired => paired.1 paired.2
  else if keyword = "allOf" then children.all (· value)
  else if keyword = "anyOf" then children.any (· value)
  else if keyword = "oneOf" then children.countP (· value) == 1
  else true

def Operand.holds (vocabulary : Vocabulary) (beside : Siblings) (keyword : String) :
    Operand → Acceptance
  | .plain argument => vocabulary.asserts keyword argument
  | .child accepted => childHolds vocabulary beside keyword accepted
  | .named children => namedHold vocabulary keyword children
  | .listed children => listedHold keyword children

/-- Every keyword of a schema holds. -/
def satisfied (vocabulary : Vocabulary) (fields : List (String × Json))
    (operands : List (String × Operand)) (value : Json) : Bool :=
  operands.all fun operand =>
    operand.2.holds vocabulary (siblings fields operands) operand.1 value

/-! ## Schemas -/

mutual

/-- What a schema accepts; what is no schema asks nothing. -/
def accepts (vocabulary : Vocabulary) : Json → Acceptance
  | .object fields => satisfied vocabulary fields (operands vocabulary fields)
  | .bool allowed => fun _ => allowed
  | .null => fun _ => true
  | .unsigned _ => fun _ => true
  | .number _ => fun _ => true
  | .string _ => fun _ => true
  | .array _ => fun _ => true

def operands (vocabulary : Vocabulary) : List (String × Json) → List (String × Operand)
  | [] => []
  | (keyword, value) :: rest =>
    (keyword, operand vocabulary keyword value) :: operands vocabulary rest

def operand (vocabulary : Vocabulary) (keyword : String) : Json → Operand
  | .object fields =>
    if keyword ∈ namedSchemaKeywords then .named (acceptsNamed vocabulary fields)
    else if keyword ∈ childKeywords then
      .child (satisfied vocabulary fields (operands vocabulary fields))
    else .plain (.object fields)
  | .array items =>
    if keyword ∈ childrenKeywords then .listed (acceptsListed vocabulary items)
    else .plain (.array items)
  | .bool allowed =>
    if keyword ∈ childKeywords then .child fun _ => allowed else .plain (.bool allowed)
  | .null => .plain .null
  | .unsigned value => .plain (.unsigned value)
  | .number text => .plain (.number text)
  | .string value => .plain (.string value)

def acceptsNamed (vocabulary : Vocabulary) : List (String × Json) → List (String × Acceptance)
  | [] => []
  | (name, child) :: rest => (name, accepts vocabulary child) :: acceptsNamed vocabulary rest

def acceptsListed (vocabulary : Vocabulary) : List Json → List Acceptance
  | [] => []
  | child :: rest => accepts vocabulary child :: acceptsListed vocabulary rest

end

theorem operands_eq_map (vocabulary : Vocabulary) (fields : List (String × Json)) :
    operands vocabulary fields =
      fields.map fun field => (field.1, operand vocabulary field.1 field.2) := by
  induction fields with
  | nil => rfl
  | cons field rest ih => simp [operands, ih]

/-! ## Equality of values -/

mutual

/-- Equality of JSON values, whatever the order of an object's fields. -/
def Json.same : Json → Json → Bool
  | .null, .null => true
  | .bool a, .bool b => a == b
  | .unsigned a, .unsigned b => a == b
  | .number a, .number b => a == b
  | .string a, .string b => a == b
  | .array a, .array b => sameItems a b
  | .object a, .object b => a.length == b.length && sameFields a b
  | _, _ => false

def sameItems : List Json → List Json → Bool
  | [], [] => true
  | a :: rest, b :: rest' => a.same b && sameItems rest rest'
  | _, _ => false

def sameFields : List (String × Json) → List (String × Json) → Bool
  | [], _ => true
  | (name, a) :: rest, fields =>
    (match fields.lookup name with
      | some b => a.same b
      | none => false) && sameFields rest fields

end

def distinctItems : List Json → Bool
  | [] => true
  | item :: rest => rest.all (!item.same ·) && distinctItems rest

def Json.string? : Json → Option String
  | .string text => some text
  | _ => none

/-- The vocabulary of the two keywords that decoders are spared. -/
def sparedVocabulary : Vocabulary where
  asserts keyword argument value :=
    match argument with
    | .bool true => keyword != "uniqueItems" || distinctItems value.items
    | .unsigned maximum =>
      keyword != "maxLength" || value.string?.all (·.length ≤ maximum)
    | _ => true
  matchesPattern _ _ := false

end DocumentSummarizer.Pipeline.Gateway
