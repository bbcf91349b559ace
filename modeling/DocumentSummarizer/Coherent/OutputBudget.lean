import Mathlib.Data.List.Sort
import DocumentSummarizer.Coherent.SplitRepair
import DocumentSummarizer.Library.GreatestSearch
import DocumentSummarizer.Pipeline.ModelConversation

/-! # The output budget

One admission decision for the shape of a coherent response and its token allowance: the
runtime is asked how much output it can admit, and the ceiling of a text is lowered only
when the estimate for the shape does not fit.
-/

namespace DocumentSummarizer.Coherent

open DocumentSummarizer.Library DocumentSummarizer.Pipeline DocumentSummarizer.Pipeline.Gateway

def formattingTokens : Nat := 256

def repairFeedbackTokens : Nat := 512

def textTokensNumerator : Nat := 23

def textTokensDenominator : Nat := 100

def tokenizerFramingReserveTokens : Nat := 512

/-- `OUTPUT_TOKENS` -/
def leastOutputTokens : Nat := 2048

def maxUnitCharacters : Nat := 1200

def maxSourcesPerUnit : Nat := 8

def invalidBudget : PipelineFailure :=
  stageFailure .synthesize "INVALID_SYNTHESIS_BUDGET"
    "The synthesis response shape cannot be budgeted" false

/-- What ends a computation early: a failure, or arithmetic that leaves its type. -/
inductive Halt where
  | overflow
  | failed (failure : PipelineFailure)
  deriving DecidableEq, Repr

/-! ## Values -/

/-- `value[key]` -/
def field (key : String) : Json → Json
  | .object fields => ((fields.find? (·.1 = key)).map (·.2)).getD .null
  | _ => .null

def asU64 : Json → Option Nat
  | .unsigned value => some value
  | _ => none

def asStr : Json → Option String
  | .string value => some value
  | _ => none

def asArray : Json → Option (List Json)
  | .array items => some items
  | _ => none

/-- `value[key] = …`, with the old value at hand; a missing key is added. -/
def updateField (key : String) (update : Json → Json) : Json → Json
  | .object fields =>
      if fields.any (fun entry => decide (entry.1 = key)) then
        .object (fields.map fun entry =>
          if entry.1 = key then (entry.1, update entry.2) else entry)
      else .object (fields ++ [(key, update .null)])
  | .null => .object [(key, update .null)]
  | other => other

def unitsOf (schema : Json) : Json := field "units" (field "properties" schema)

def unitFields (schema : Json) : Json := field "properties" (field "items" (unitsOf schema))

def maxLengthOf (schema : Json) : Json := field "maxLength" (field "text" (unitFields schema))

/-- `schema["properties"]["units"]["items"]["properties"]["text"]["maxLength"] = json!(n)` -/
def setMaxLength (characters : Nat) : Json → Json :=
  updateField "properties" <| updateField "units" <| updateField "items" <|
    updateField "properties" <| updateField "text" <|
      updateField "maxLength" fun _ => .unsigned characters

/-! ## The estimate -/

def emptyUnit (ids : List String) : String :=
  "\x7b\"source_ids\":" ++ jsonArray (ids.map quote) ++ ",\"text\":\"\"\x7d"

/-- The response with empty texts. -/
def emptyResponse (count : Nat) (ids : List String) : String :=
  "\x7b\"units\":" ++ jsonArray (List.replicate count (emptyUnit ids)) ++ "\x7d"

/-- The longest ids, by the bytes that they take. -/
def longestIds (ids : List String) (count : Nat) : List String :=
  (ids.insertionSort fun a b => (quote b).utf8ByteSize ≤ (quote a).utf8ByteSize).take count

def responseStructure (schema : Json) (characters : Nat) : Option (Nat × Nat) := do
  let units := unitsOf schema
  let count ← asU64 (field "maxItems" units)
  let sources := field "source_ids" (unitFields schema)
  let sourceCount ← asU64 (field "maxItems" sources)
  if count = 0 ∨ count > maxSummaryClaims ∨ sourceCount = 0 ∨ sourceCount > maxSourcesPerUnit ∨
      characters = 0 ∨ characters > maxUnitCharacters then none
  else
    let items ← asArray (field "enum" (field "items" sources))
    let ids ← items.mapM asStr
    if ids.length < sourceCount then none
    else some (count, (emptyResponse count (longestIds ids sourceCount)).utf8ByteSize)

/-- `usize::MAX` -/
def usizeLimit : Nat := 2 ^ 64 - 1

def checkedUsize (n : Nat) : Option Nat := if n ≤ usizeLimit then some n else none

def responseTokens (schema : Json) (characters : Nat) : Option Nat := do
  let (count, overhead) ← responseStructure schema characters
  let text ← checkedUsize (count * characters)
  let scaled ← checkedUsize (text * textTokensNumerator)
  let rounded ← checkedUsize (scaled + (textTokensDenominator - 1))
  let bytes ← checkedUsize (overhead + rounded / textTokensDenominator)
  let tokens ← toU32 bytes
  let total ← toU32 (tokens + formattingTokens)
  return max total leastOutputTokens

/-! ## Admission -/

def contextCodes : List String := ["MODEL_CONTEXT_EXCEEDED", "MODEL_OUTPUT_BUDGET_EXCEEDED"]

def runtimePipelineFailure (stage : PipelineStage) (context : String)
    (failure : ModelRuntimeFailure) : PipelineFailure :=
  stageFailure stage failure.code (context ++ ": " ++ failure.message) failure.recoverable

def requestExceedsRuntimeContext (runtime : ModelRuntime) (request : ModelRequest) :
    Except Halt Bool :=
  match runtime.preflightRequest request with
  | .ok () => .ok false
  | .error failure =>
      if failure.code ∈ contextCodes then .ok true
      else .error (.failed
        (runtimePipelineFailure .synthesize "MODEL_SYNTHESIS_ADMISSION" failure))

/-- One probe of the runtime boundary. -/
def admitsOutput (runtime : ModelRuntime) (request : ModelRequest) (reserve tokens : Nat) :
    Except Halt Bool := do
  let maximum ← okOrElse (toU32 (tokens + reserve)) (.failed invalidBudget)
  let exceeds ← requestExceedsRuntimeContext runtime { request with maxOutputTokens := maximum }
  return !exceeds

def feedbackReserve (reserveFeedback : Bool) : Nat :=
  if reserveFeedback then repairFeedbackTokens else 0

def availableOutput (runtime : ModelRuntime) (request : ModelRequest) (reserveFeedback : Bool) :
    Except Halt (Option Nat) :=
  let reserve := feedbackReserve reserveFeedback
  let context := runtime.contextTokens .synthesize
  if context < tokenizerFramingReserveTokens + reserve then .ok none
  else
    greatestAdmitted (admitsOutput runtime request reserve) u32Max .overflow leastOutputTokens
      (context - tokenizerFramingReserveTokens - reserve) none

def schemaOf (request : ModelRequest) : Option Json :=
  match request.outputFormat with
  | .jsonSchema _ schema => some schema
  | .text => none

def maximumCharacters (request : ModelRequest) : Except Halt Nat := do
  let schema ← okOrElse (schemaOf request) (.failed invalidBudget)
  let maximum ← okOrElse (asU64 (maxLengthOf schema)) (.failed invalidBudget)
  refuseIf (¬ (0 < maximum ∧ maximum ≤ maxUnitCharacters)) (.failed invalidBudget)
  return maximum

/-- The request with its schema's ceiling on a text lowered. -/
def withCeiling (request : ModelRequest) (characters : Nat) : ModelRequest :=
  match request.outputFormat with
  | .jsonSchema name schema =>
      { request with outputFormat := .jsonSchema name (setMaxLength characters schema) }
  | .text => request

/-- One probe of the ceilings. -/
def ceilingFits (schema : Json) (capacity characters : Nat) : Except Halt Bool := do
  let estimate ← okOrElse (responseTokens schema characters) (.failed invalidBudget)
  return decide (estimate ≤ capacity)

def admitOutput (runtime : ModelRuntime) (request : ModelRequest) (resize : Bool) :
    Except Halt (Option ModelRequest) := do
  let schema ← okOrElse (schemaOf request) (.failed invalidBudget)
  let maximum ← maximumCharacters request
  let estimate ← okOrElse (responseTokens schema maximum) (.failed invalidBudget)
  match ← availableOutput runtime request resize with
  | none => return none
  | some capacity =>
    if estimate > capacity then
      if resize = false then return none
      else
        match ← greatestAdmitted (ceilingFits schema capacity) usizeLimit .overflow 1 maximum none with
        | none => return none
        | some characters =>
          let candidate := withCeiling request characters
          match ← availableOutput runtime candidate true with
          | none => return none
          | some finalCapacity =>
            let schema ← okOrElse (schemaOf candidate) (.failed invalidBudget)
            let estimate ← okOrElse (responseTokens schema characters) (.failed invalidBudget)
            if estimate > finalCapacity then return none
            else return some { candidate with maxOutputTokens := finalCapacity }
    else return some { request with maxOutputTokens := capacity }

end DocumentSummarizer.Coherent
