import DocumentSummarizer.Library.JsonText
import DocumentSummarizer.Pipeline.ChatStream

/-! # Chat generation

A request is sent to the local model, and once more without its schema when the
model cannot load the vocabulary that schemas need. Every attempt is recorded.
-/

namespace DocumentSummarizer.Pipeline.Chat

open Library Gateway

def maxResponseSchemaBytes : Nat := 64 * 1024
def maxResponseSchemaNameBytes : Nat := 64

structure ModelResponse where
  text : String
  runtimeId : String
  modelId : String
  requestAttempts : List ModelRequestAttemptDiagnostic

/-- What the runtime writes and reads as JSON. -/
structure Serde where
  decodeFrame : List UInt8 → Option ChatStreamFrame
  decodeValue : List UInt8 → Option Json
  valueBytes : Json → List UInt8
  encodeOutput : String → Option String → ModelTokenUsage → List UInt8
  decodeResponse : List UInt8 → Option (String × Option String)

structure OllamaRuntime where
  serde : Serde
  runtimeId : String
  modelId : String
  expectedDigest : Option String
  admitRequest : ModelRequest → Option Json → Except ModelRuntimeFailure Unit

structure Response where
  status : Nat
  body : ResponseBody

/-- What happens to one request on its way: the reply, the outcomes of the digest checks while
it streams, and the milliseconds it takes. -/
structure Exchange where
  reply : Except ModelRuntimeFailure Response
  verifyExecutionDigest : Nat → Except ModelRuntimeFailure Unit
  elapsed : Nat

structure Sent where
  format : Option Json
  exchange : Exchange

/-- How a call of the runtime ends, what it sent, and whether schemas are avoided from then
on. -/
structure Generation where
  result : Except ModelRuntimeFailure ModelResponse
  issued : List Sent
  formatVocabularyUnavailable : Bool

/-! ## Replies -/

def isSuccess (status : Nat) : Bool :=
  200 ≤ status && status < 300

def isServerError (status : Nat) : Bool :=
  500 ≤ status && status < 600

def withRequestAttempts (failure : ModelRuntimeFailure)
    (requestAttempts : List ModelRequestAttemptDiagnostic) : ModelRuntimeFailure :=
  { failure with requestAttempts }

def rejectedResponse (status : Nat) : ModelRuntimeFailure :=
  runtimeFailure "MODEL_RUNTIME_REJECTED" ("Local model returned HTTP " ++ toString status)
    (isServerError status)

def readBoundedBody (body : ResponseBody) : Except ModelRuntimeFailure (List UInt8) := do
  refuseIf (body.broken ∧ body.bytes.length ≤ maxModelResponseBytes) unreadResponse
  refuseIf (maxModelResponseBytes < body.bytes.length) responseTooLarge
  return body.bytes

/-- `value[key]` -/
def index (key : String) : Json → Json
  | .object fields => (fields.lookup key).getD .null
  | _ => .null

def asString : Json → Option String
  | .string text => some text
  | _ => none

def asUnsigned : Json → Option Nat
  | .unsigned value => some value
  | _ => none

section Runtime

variable (runtime : OllamaRuntime)

def streamReader (exchange : Exchange) : StreamReader where
  modelId := runtime.modelId
  expectedDigest := runtime.expectedDigest
  decodeFrame := runtime.serde.decodeFrame
  verifyExecutionDigest := exchange.verifyExecutionDigest

def errorMessage (body : List UInt8) : Option String :=
  (runtime.serde.decodeValue body).bind fun value =>
    (asString (index "error" value)).or (asString (index "message" (index "error" value)))

def isFormatVocabularyFailure (status : Nat) (body : List UInt8) : Bool :=
  status == 500 &&
    errorMessage runtime body == some "failed to load model vocabulary required for format"

def providerUsage (body : List UInt8) : ModelTokenUsage :=
  let response := runtime.serde.decodeValue body
  tokenUsage (response.bind fun value => asUnsigned (index "prompt_eval_count" value))
    (response.bind fun value => asUnsigned (index "eval_count" value))

def sendChatAttempt (exchange : Exchange) : Except ModelRuntimeFailure (Nat × List UInt8) := do
  let response ← exchange.reply
  if isSuccess response.status then
    let output ← readVerifiedChatStream (streamReader runtime exchange) response.body
    return (response.status,
      runtime.serde.encodeOutput output.content output.doneReason output.usage)
  else
    let body ← readBoundedBody response.body
    return (response.status, body)

/-! ## Requests -/

def noUsage : ModelTokenUsage := ⟨none, none, none⟩

def requestAttemptDiagnostic (request : ModelRequest) (attemptOrdinal : Nat)
    (transportAttempt : ModelTransportAttempt) (elapsed : Nat) (providerUsage : ModelTokenUsage)
    (succeeded : Bool) : ModelRequestAttemptDiagnostic where
  stage := request.stage
  requestOrdinal := request.ordinal
  attemptOrdinal := attemptOrdinal
  transportAttempt := transportAttempt
  elapsedMilliseconds := min elapsed (2 ^ 64 - 1)
  configuredOutputTokens := request.maxOutputTokens
  providerUsage := providerUsage
  succeeded := succeeded

def invalidRequest : ModelRuntimeFailure :=
  runtimeFailure "MODEL_REQUEST_INVALID"
    "Model request prompts, output limit, and signed-range seed must be valid" false

def invalidSchema : ModelRuntimeFailure :=
  runtimeFailure "MODEL_CONFIG_INVALID" "Structured-output schema name or body is invalid" false

def responseFormat : ModelOutputFormat → Except ModelRuntimeFailure (Option Json)
  | .text => .ok none
  | .jsonSchema name schema => do
    refuseIf (name = "" ∨ maxResponseSchemaNameBytes < name.utf8ByteSize ∨
        name.toList.all (fun c => c.isAlphanum || c == '_' || c == '-') = false ∨
        schema.isObject = false ∨
        maxResponseSchemaBytes < (runtime.serde.valueBytes schema).length) invalidSchema
    return some (decoderCompatible schema)

def jsonObjectResponseFormat : Json := .string "json"

def requestInvalid (request : ModelRequest) : Prop :=
  isBlank request.systemPrompt = true ∨ isBlank request.userPrompt = true ∨
    request.maxOutputTokens = 0 ∨ 2 ^ 63 - 1 < request.seed

instance (request : ModelRequest) : Decidable (requestInvalid request) :=
  inferInstanceAs (Decidable (_ ∨ _ ∨ _ ∨ _))

def invalidResponse : ModelRuntimeFailure :=
  runtimeFailure "MODEL_RESPONSE_INVALID" "Local model returned an invalid response" true

/-- What is said of a response that does not end in `stop`. -/
def unfinishedResponse (doneReason : Option String) : ModelRuntimeFailure :=
  if doneReason = some "length" then
    runtimeFailure "MODEL_OUTPUT_LIMIT_REACHED"
      "Local model generation exhausted its output allowance before completion" true
  else
    runtimeFailure "MODEL_EXECUTION_UNVERIFIED"
      "Local model response omitted a qualified completion reason" true

def emptyResponse : ModelRuntimeFailure :=
  runtimeFailure "MODEL_RESPONSE_EMPTY" "Local model returned no summary text" true

/-- What `generate` makes of the reply it is left with, `attempts` recorded before it. -/
def conclude (request : ModelRequest) (attempts : List ModelRequestAttemptDiagnostic)
    (initial : ModelTransportAttempt) (elapsed status : Nat) (body : List UInt8) :
    Except ModelRuntimeFailure ModelResponse :=
  let ordinal := if attempts.isEmpty then 0 else 1
  let transportAttempt := if ordinal = 0 then initial else .schemaFallbackRetry
  let record := fun succeeded => attempts ++ [requestAttemptDiagnostic request ordinal
    transportAttempt elapsed (providerUsage runtime body) succeeded]
  if isSuccess status = false then
    .error (withRequestAttempts (rejectedResponse status) (record false))
  else
    match runtime.serde.decodeResponse body with
    | none => .error (withRequestAttempts invalidResponse (record false))
    | some (content, doneReason) =>
      if doneReason ≠ some "stop" then
        .error (withRequestAttempts (unfinishedResponse doneReason) (record false))
      else if trim content.toList = [] then
        .error (withRequestAttempts emptyResponse (record false))
      else
        .ok ⟨String.ofList (trim content.toList), runtime.runtimeId, runtime.modelId, record true⟩

/-- What is recorded of a request that is not sent. -/
def unsent (request : ModelRequest) (elapsed : Nat) (unavailable : Bool)
    (failure : ModelRuntimeFailure) : Generation where
  result := .error (withRequestAttempts failure
    [requestAttemptDiagnostic request 0 .primary elapsed noUsage false])
  issued := []
  formatVocabularyUnavailable := unavailable

/-- The format that is asked for: schemas are avoided once they were unavailable. -/
def outputFormat (unavailable : Bool) (schemaFormat : Option Json) : Option Json :=
  if schemaFormat.isSome && unavailable then some jsonObjectResponseFormat else schemaFormat

/-- `generate`; `unavailable` is what is known of the schema vocabulary, `elapsed` the time
spent before anything is sent. -/
def generate (unavailable : Bool) (elapsed : Nat) (transport : Nat → Exchange)
    (request : ModelRequest) : Generation :=
  if requestInvalid request then unsent request elapsed unavailable invalidRequest
  else
    match responseFormat runtime request.outputFormat with
    | .error failure => unsent request elapsed unavailable failure
    | .ok schemaFormat =>
      let attemptedSchema := schemaFormat.isSome && !unavailable
      let format := outputFormat unavailable schemaFormat
      match runtime.admitRequest request format with
      | .error failure => unsent request elapsed unavailable failure
      | .ok () =>
        let initial := if unavailable && format.isSome then .cachedSchemaFallback else .primary
        let first := transport 0
        match sendChatAttempt runtime first with
        | .error failure =>
          ⟨.error (withRequestAttempts failure
            [requestAttemptDiagnostic request 0 initial first.elapsed noUsage false]),
            [⟨format, first⟩], unavailable⟩
        | .ok (status, body) =>
          if isSuccess status = false ∧ attemptedSchema = true then
            let attempts := [requestAttemptDiagnostic request 0 initial first.elapsed
              (providerUsage runtime body) false]
            if isFormatVocabularyFailure runtime status body then
              let second := transport 1
              match sendChatAttempt runtime second with
              | .error failure =>
                ⟨.error (withRequestAttempts failure (attempts ++
                  [requestAttemptDiagnostic request 1 .schemaFallbackRetry second.elapsed noUsage
                    false])),
                  [⟨format, first⟩, ⟨some jsonObjectResponseFormat, second⟩], true⟩
              | .ok (status, body) =>
                ⟨conclude runtime request attempts initial second.elapsed status body,
                  [⟨format, first⟩, ⟨some jsonObjectResponseFormat, second⟩], true⟩
            else
              ⟨.error (withRequestAttempts (rejectedResponse status) attempts),
                [⟨format, first⟩], unavailable⟩
          else
            ⟨conclude runtime request [] initial first.elapsed status body, [⟨format, first⟩],
              unavailable⟩

end Runtime

/-! ## Attempts -/

/-- The attempts that an answer of the runtime records. -/
def attemptsOf : Except ModelRuntimeFailure ModelResponse → List ModelRequestAttemptDiagnostic
  | .ok response => response.requestAttempts
  | .error failure => failure.requestAttempts

/-- A request that passes the checks in front of its transport. -/
structure Passes (runtime : OllamaRuntime) (unavailable : Bool) (request : ModelRequest)
    (schemaFormat : Option Json) : Prop where
  valid : ¬ requestInvalid request
  formatted : responseFormat runtime request.outputFormat = .ok schemaFormat
  admitted : runtime.admitRequest request (outputFormat unavailable schemaFormat) = .ok ()

/-- The diagnostic of the attempt at a place of the attempts. -/
structure Records (request : ModelRequest) (sent : Sent × Nat)
    (diagnostic : ModelRequestAttemptDiagnostic) : Prop where
  stage : diagnostic.stage = request.stage
  requestOrdinal : diagnostic.requestOrdinal = request.ordinal
  attemptOrdinal : diagnostic.attemptOrdinal = sent.2
  elapsed : diagnostic.elapsedMilliseconds = min sent.1.exchange.elapsed (2 ^ 64 - 1)
  outputTokens : diagnostic.configuredOutputTokens = request.maxOutputTokens

/-- A reply that is a whole stream ending in `stop`, and its text. -/
structure Answers (runtime : OllamaRuntime) (exchange : Exchange) (response : ModelResponse)
    (front : List Frame) (last : Frame) (reply : Response) : Prop where
  replied : exchange.reply = .ok reply
  success : isSuccess reply.status = true
  streamed : StreamOf (streamReader runtime exchange) reply.body front last
  stopped : last.doneReason = some "stop"
  text : response.text = String.ofList (trim (contents (front ++ [last])).toList)
  filled : trim (contents (front ++ [last])).toList ≠ []

/-- What a call of the runtime sends, records and answers. -/
structure Generated (runtime : OllamaRuntime) (request : ModelRequest)
    (schemaFormat : Option Json) (transport : Nat → Exchange) (generation : Generation) :
    Prop where
  atLeastOne : 1 ≤ generation.issued.length
  atMostTwo : generation.issued.length ≤ 2
  exchanges : generation.issued.map (·.exchange) =
    (List.range generation.issued.length).map transport
  retried : ∀ first second, generation.issued = [first, second] →
    first.format = schemaFormat ∧ schemaFormat.isSome = true ∧ ∃ body,
      sendChatAttempt runtime first.exchange = .ok (500, body) ∧
      errorMessage runtime body = some "failed to load model vocabulary required for format"
  recorded : List.Forall₂ (Records request) generation.issued.zipIdx
    (attemptsOf generation.result)
  marked : ∀ diagnostic ∈ (attemptsOf generation.result).dropLast, diagnostic.succeeded = false
  answered : ∀ response, generation.result = .ok response → ∃ sent front last reply,
    generation.issued.getLast? = some sent ∧
      Answers runtime sent.exchange response front last reply

section Attempts

variable {runtime : OllamaRuntime} {request : ModelRequest}
  {attempts : List ModelRequestAttemptDiagnostic} {initial : ModelTransportAttempt}
  {elapsed status : Nat} {body : List UInt8} {response : ModelResponse} {exchange : Exchange}

theorem attemptsOf_error (failure : ModelRuntimeFailure) :
    attemptsOf (.error (withRequestAttempts failure attempts)) = attempts :=
  rfl

theorem conclude_attempts : ∃ kind succeeded,
    attemptsOf (conclude runtime request attempts initial elapsed status body) =
      attempts ++ [requestAttemptDiagnostic request (if attempts.isEmpty then 0 else 1) kind
        elapsed (providerUsage runtime body) succeeded] := by
  simp only [conclude]
  split
  · exact ⟨_, false, rfl⟩
  · split
    · exact ⟨_, false, rfl⟩
    · split
      · exact ⟨_, false, rfl⟩
      · split
        · exact ⟨_, false, rfl⟩
        · exact ⟨_, true, rfl⟩

theorem conclude_ok
    (concluded : conclude runtime request attempts initial elapsed status body = .ok response) :
    isSuccess status = true ∧ ∃ content,
      runtime.serde.decodeResponse body = some (content, some "stop") ∧
      response.text = String.ofList (trim content.toList) ∧ trim content.toList ≠ [] := by
  simp only [conclude] at concluded
  split at concluded
  · cases concluded
  · next success =>
      split at concluded
      · cases concluded
      · next content doneReason decoded =>
          split at concluded
          · cases concluded
          · next stopped =>
              obtain rfl : doneReason = some "stop" := not_not.mp stopped
              split at concluded
              · cases concluded
              · next filled =>
                  cases concluded
                  exact ⟨by simpa using success, content, decoded, rfl, filled⟩

theorem sendChatAttempt_success (success : isSuccess status = true)
    (sent : sendChatAttempt runtime exchange = .ok (status, body)) :
    ∃ reply output, exchange.reply = .ok reply ∧ isSuccess reply.status = true ∧
      readVerifiedChatStream (streamReader runtime exchange) reply.body = .ok output ∧
      body = runtime.serde.encodeOutput output.content output.doneReason output.usage := by
  simp only [sendChatAttempt, peel_ok] at sent
  obtain ⟨reply, replied, sent⟩ := sent
  split at sent
  · next success =>
      simp only [peel_ok, return_ok, Prod.mk.injEq] at sent
      obtain ⟨output, read, -, same⟩ := sent
      exact ⟨reply, output, replied, success, read, same.symm⟩
  · next failure =>
      simp only [peel_ok, return_ok, Prod.mk.injEq] at sent
      obtain ⟨-, -, rfl, -⟩ := sent
      exact absurd success failure

/-- What the runtime writes of a stream, it reads back. -/
def RoundTrips (serde : Serde) : Prop :=
  ∀ content doneReason usage,
    serde.decodeResponse (serde.encodeOutput content doneReason usage) = some (content, doneReason)

theorem conclude_answers (law : RoundTrips runtime.serde)
    (sent : sendChatAttempt runtime exchange = .ok (status, body))
    (concluded : conclude runtime request attempts initial elapsed status body = .ok response) :
    ∃ front last reply, Answers runtime exchange response front last reply := by
  obtain ⟨success, content, decoded, text, filled⟩ := conclude_ok concluded
  obtain ⟨reply, output, replied, accepted, read, rfl⟩ := sendChatAttempt_success success sent
  rw [law, Option.some.injEq, Prod.mk.injEq] at decoded
  obtain ⟨rfl, stopped⟩ := decoded
  obtain ⟨front, last, streamed, rfl⟩ := readVerifiedChatStream_eq_ok.mp read
  exact ⟨front, last, reply, replied, accepted, streamed, stopped, text, filled⟩

theorem generated_once {result : Except ModelRuntimeFailure ModelResponse}
    {schemaFormat format : Option Json} {transport : Nat → Exchange} {flag succeeded : Bool}
    {kind : ModelTransportAttempt} {usage : ModelTokenUsage}
    (recorded : attemptsOf result =
      [requestAttemptDiagnostic request 0 kind (transport 0).elapsed usage succeeded])
    (answered : ∀ response, result = .ok response → ∃ front last reply,
      Answers runtime (transport 0) response front last reply) :
    Generated runtime request schemaFormat transport
      ⟨result, [⟨format, transport 0⟩], flag⟩ where
  atLeastOne := le_refl 1
  atMostTwo := by simp
  exchanges := by simp
  retried := by simp
  recorded := by
    rw [recorded]
    exact .cons ⟨rfl, rfl, rfl, rfl, rfl⟩ .nil
  marked := by simp [recorded]
  answered := by
    intro response ok
    obtain ⟨front, last, reply, answers⟩ := answered response ok
    exact ⟨_, front, last, reply, rfl, answers⟩

theorem generated_twice {result : Except ModelRuntimeFailure ModelResponse}
    {schemaFormat format format' : Option Json} {transport : Nat → Exchange}
    {flag succeeded : Bool} {kind kind' : ModelTransportAttempt} {usage usage' : ModelTokenUsage}
    (recorded : attemptsOf result =
      [requestAttemptDiagnostic request 0 kind (transport 0).elapsed usage false,
        requestAttemptDiagnostic request 1 kind' (transport 1).elapsed usage' succeeded])
    (schema : format = schemaFormat ∧ schemaFormat.isSome = true)
    (failed : ∃ body, sendChatAttempt runtime (transport 0) = .ok (500, body) ∧
      errorMessage runtime body = some "failed to load model vocabulary required for format")
    (answered : ∀ response, result = .ok response → ∃ front last reply,
      Answers runtime (transport 1) response front last reply) :
    Generated runtime request schemaFormat transport
      ⟨result, [⟨format, transport 0⟩, ⟨format', transport 1⟩], flag⟩ where
  atLeastOne := by simp
  atMostTwo := le_refl 2
  exchanges := rfl
  retried := by
    intro first second same
    obtain ⟨rfl, -⟩ := List.cons.inj same
    exact ⟨schema.1, schema.2, failed⟩
  recorded := by
    rw [recorded]
    exact .cons ⟨rfl, rfl, rfl, rfl, rfl⟩ (.cons ⟨rfl, rfl, rfl, rfl, rfl⟩ .nil)
  marked := by simp [recorded, requestAttemptDiagnostic]
  answered := by
    intro response ok
    obtain ⟨front, last, reply, answers⟩ := answered response ok
    exact ⟨_, front, last, reply, rfl, answers⟩

/-- A request that passes its checks is sent once, or twice when the first attempt could not
load the vocabulary of schemas, and every attempt is recorded. -/
theorem generate_spec (law : RoundTrips runtime.serde) {unavailable : Bool}
    {schemaFormat : Option Json} (passes : Passes runtime unavailable request schemaFormat)
    (waited : Nat) (transport : Nat → Exchange) :
    Generated runtime request schemaFormat transport
      (generate runtime unavailable waited transport request) := by
  simp only [generate, if_neg passes.valid, passes.formatted, passes.admitted]
  cases first : sendChatAttempt runtime (transport 0) with
  | error failure => exact generated_once (attemptsOf_error failure) (by simp)
  | ok answer =>
      obtain ⟨status, body⟩ := answer
      simp only
      split
      · next schemaTried =>
          obtain ⟨some, available⟩ : schemaFormat.isSome = true ∧ unavailable = false := by
            simpa using schemaTried.2
          split
          · next missing =>
              simp only [isFormatVocabularyFailure, Bool.and_eq_true, beq_iff_eq] at missing
              obtain ⟨rfl, message⟩ := missing
              have schema : outputFormat unavailable schemaFormat = schemaFormat := by
                simp [outputFormat, available]
              cases second : sendChatAttempt runtime (transport 1) with
              | error failure =>
                  exact generated_twice (attemptsOf_error failure) ⟨schema, some⟩
                    ⟨body, first, message⟩ (by simp)
              | ok answer =>
                  obtain ⟨status, body'⟩ := answer
                  obtain ⟨kind, succeeded, recorded⟩ := @conclude_attempts runtime request
                    [requestAttemptDiagnostic request 0 _ (transport 0).elapsed
                      (providerUsage runtime body) false] _ (transport 1).elapsed status body'
                  exact generated_twice recorded ⟨schema, some⟩ ⟨body, first, message⟩
                    fun response concluded => conclude_answers law second concluded
          · exact generated_once (attemptsOf_error _) (by simp)
      · obtain ⟨kind, succeeded, recorded⟩ := @conclude_attempts runtime request [] _
          (transport 0).elapsed status body
        exact generated_once recorded
          fun response concluded => conclude_answers law first concluded

end Attempts

/-! ## A runtime -/

def encodeText (text : List Char) : List UInt8 :=
  (String.ofList text).toByteArray.data.toList

def decodeText (bytes : List UInt8) : Option (List Char) :=
  (String.fromUTF8? ⟨bytes.toArray⟩).map String.toList

theorem decodeText_encodeText (text : List Char) : decodeText (encodeText text) = some text := by
  have read : String.fromUTF8? (String.ofList text).toByteArray = some (String.ofList text) :=
    dif_pos (String.ofList text).isValidUTF8
  simp only [decodeText, encodeText, Array.toArray_toList, read, Option.map_some,
    String.toList_ofList]

def countText : Option Nat → List Char
  | some count => Nat.toDigits 10 count
  | none => ['n', 'u', 'l', 'l']

def reasonKey : List Char := "\x7b\"done_reason\":".toList
def countKey : List Char := ",\"eval_count\":".toList
def messageKey : List Char := ",\"message\":\x7b\"content\":".toList
def promptKey : List Char := "\x7d,\"prompt_eval_count\":".toList

def literalText (text : String) : List Char :=
  '"' :: (escapeText text.toList ++ ['"'])

def reasonText : Option String → List Char
  | some reason => literalText reason
  | none => ['n', 'u', 'l', 'l']

/-- The output of a stream as JSON, with the keys in order. -/
def outputText (content : String) (doneReason : Option String) (usage : ModelTokenUsage) :
    List Char :=
  reasonKey ++ (reasonText doneReason ++ (countKey ++ (countText usage.completionTokens ++
    (messageKey ++ (literalText content ++ (promptKey ++
      (countText usage.promptTokens ++ ['\x7d'])))))))

def readLiteral : List Char → Option (String × List Char)
  | '"' :: rest => (readString rest).map fun read => (String.ofList read.1, read.2)
  | _ => none

def readReason : List Char → Option (Option String × List Char)
  | 'n' :: 'u' :: 'l' :: 'l' :: rest => some (none, rest)
  | text => (readLiteral text).map fun read => (some read.1, read.2)

def readOutput (text : List Char) : Option (String × Option String) := do
  let (doneReason, rest) ← readReason (text.drop reasonKey.length)
  let behind := (rest.drop countKey.length).dropWhile (· != ',')
  let (content, _) ← readLiteral (behind.drop messageKey.length)
  return (content, doneReason)

theorem readLiteral_literalText (text : String) (rest : List Char) :
    readLiteral (literalText text ++ rest) = some (text, rest) := by
  simp [literalText, readLiteral, readString_escapeText]

theorem readReason_reasonText (doneReason : Option String) (rest : List Char) :
    readReason (reasonText doneReason ++ rest) = some (doneReason, rest) := by
  cases doneReason with
  | none => rfl
  | some reason =>
      have read := readLiteral_literalText reason rest
      simp only [literalText, List.cons_append, List.append_assoc, List.nil_append] at read
      simp [reasonText, literalText, readReason, read]

theorem countText_unseparated (count : Option Nat) : ∀ c ∈ countText count, (c != ',') = true := by
  cases count with
  | none => simp [countText]
  | some count =>
      intro c mem
      have digit := Nat.isDigit_of_mem_toDigits (by decide) (by decide) mem
      rw [bne_iff_ne]
      rintro rfl
      exact absurd digit (by decide)

theorem readOutput_outputText (content : String) (doneReason : Option String)
    (usage : ModelTokenUsage) :
    readOutput (outputText content doneReason usage) = some (content, doneReason) := by
  have count (rest : List Char) :
      (countText usage.completionTokens ++ (messageKey ++ rest)).dropWhile (· != ',') =
        messageKey ++ rest := by
    rw [List.dropWhile_append_of_pos (countText_unseparated _)]
    rfl
  simp [readOutput, outputText, List.drop_left', readReason_reasonText, count,
    readLiteral_literalText]

def greetingStart : List Char :=
  "\x7b\"model\":\"qwen\",\"message\":\x7b\"content\":\"Hel\"\x7d,\"done\":false\x7d".toList

def greetingEnd : List Char :=
  ("\x7b\"model\":\"qwen\",\"message\":\x7b\"content\":\"lo\"\x7d,\"done\":true," ++
    "\"done_reason\":\"stop\"\x7d").toList

/-- Reads the two frames of a greeting. -/
def greetingFrame (bytes : List UInt8) : Option ChatStreamFrame :=
  if decodeText bytes = some greetingStart then
    some ⟨some "qwen", some "Hel", some false, none, none, none, none⟩
  else if decodeText bytes = some greetingEnd then
    some ⟨some "qwen", some "lo", some true, some "stop", none, none, none⟩
  else none

def outputValue (output : String × Option String) : Json :=
  .object [("done_reason", (output.2.map Json.string).getD .null), ("eval_count", .null),
    ("message", .object [("content", .string output.1)]), ("prompt_eval_count", .null)]

def greetingSerde : Serde where
  decodeFrame := greetingFrame
  decodeValue bytes := ((decodeText bytes).bind readOutput).map outputValue
  valueBytes _ := []
  encodeOutput content doneReason usage := encodeText (outputText content doneReason usage)
  decodeResponse bytes := (decodeText bytes).bind readOutput

theorem greetingSerde_roundTrips : RoundTrips greetingSerde := by
  intro content doneReason usage
  simp only [greetingSerde, decodeText_encodeText, Option.bind_some, readOutput_outputText]

def greetingRuntime : OllamaRuntime where
  serde := greetingSerde
  runtimeId := "ollama"
  modelId := "qwen"
  expectedDigest := some "digest"
  admitRequest _ _ := .ok ()

def greetingRequest : ModelRequest where
  stage := .analyze
  ordinal := 0
  systemPrompt := "Greet."
  userPrompt := "Hello?"
  seed := 7
  maxOutputTokens := 16
  outputFormat := .text

def greetingExchange : Exchange where
  reply := .ok ⟨200, encodeText (greetingStart ++ '\n' :: greetingEnd), false⟩
  verifyExecutionDigest _ := .ok ()
  elapsed := 12

theorem greetingRequest_passes : Passes greetingRuntime false greetingRequest none where
  valid := by decide
  formatted := rfl
  admitted := rfl

/-- Streams are taken just when they are whole, as the contents of their frames, and a request
that passes its checks is sent and recorded as it is to be. -/
theorem streamed_generation (runtime : OllamaRuntime) (law : RoundTrips runtime.serde) :
    (∀ reader body output, readVerifiedChatStream reader body = .ok output ↔
      ∃ front last, StreamOf reader body front last ∧ output = outputOf reader front last) ∧
      ∀ unavailable request schemaFormat, Passes runtime unavailable request schemaFormat →
        ∀ waited transport, Generated runtime request schemaFormat transport
          (generate runtime unavailable waited transport request) :=
  ⟨fun _ _ _ => readVerifiedChatStream_eq_ok,
    fun _ _ _ passes waited transport => generate_spec law passes waited transport⟩

theorem greeting_generated :
    Generated greetingRuntime greetingRequest none (fun _ => greetingExchange)
      (generate greetingRuntime false 0 (fun _ => greetingExchange) greetingRequest) :=
  (streamed_generation greetingRuntime greetingSerde_roundTrips).2 false greetingRequest none
    greetingRequest_passes 0 fun _ => greetingExchange

end DocumentSummarizer.Pipeline.Chat
