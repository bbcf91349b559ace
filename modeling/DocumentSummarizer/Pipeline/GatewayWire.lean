import DocumentSummarizer.Pipeline.Text

/-! # Gateway messages

What the inference gateway is sent and what is read from its answers: the core
of a request, the bounds it is held to, and the checks of the two envelopes.
-/

namespace DocumentSummarizer.Pipeline.Gateway

/-- Nanoseconds since the epoch. -/
abbrev Instant := Int

def nanosPerSecond : Int := 1000000000

def maxRequestBytes : Nat := 1000000
def maxResponseBytes : Nat := 1000000
def maxMessageChars : Nat := 500000
def maxSchemaBytes : Nat := 250000
def maxOutputTokens : Nat := 4096
def maxRetryAfterSeconds : Nat := 3600
def maxOutputBytes : Nat := 750000
def maxDeploymentIdBytes : Nat := 128
def maxDecoderStringLength : Nat := 1536

/-- `serde_json::Value`; `unsigned` are the numbers that `as_u64` reads. -/
inductive Json where
  | null
  | bool (value : Bool)
  | unsigned (value : Nat)
  | number (text : String)
  | string (value : String)
  | array (items : List Json)
  | object (fields : List (String × Json))

def Json.isObject : Json → Bool
  | .object _ => true
  | _ => false

/-! ## Schemas -/

def namedSchemaKeywords : List String := ["properties", "patternProperties", "$defs", "definitions"]

def childKeywords : List String :=
  ["items", "contains", "additionalProperties", "propertyNames", "not", "if", "then", "else"]

def childrenKeywords : List String := ["prefixItems", "allOf", "anyOf", "oneOf"]

/-- `uniqueItems` and a `maxLength` beyond the decoder's bound are left out. -/
def keepsKeyword (keyword : String) (value : Json) : Bool :=
  keyword != "uniqueItems" &&
    match value with
    | .unsigned maximum => keyword != "maxLength" || maximum ≤ maxDecoderStringLength
    | _ => true

mutual

/-- `decoder_compatible_schema` -/
def decoderCompatible : Json → Json
  | .object fields => .object (projectFields fields)
  | .null => .null
  | .bool value => .bool value
  | .unsigned value => .unsigned value
  | .number text => .number text
  | .string value => .string value
  | .array items => .array items

def projectFields : List (String × Json) → List (String × Json)
  | [] => []
  | (keyword, value) :: rest =>
    if keepsKeyword keyword value then
      (keyword, projectField keyword value) :: projectFields rest
    else
      projectFields rest

/-- The value that a keyword keeps: its subschemas are projected too. -/
def projectField (keyword : String) : Json → Json
  | .object fields =>
    if keyword ∈ namedSchemaKeywords then .object (projectNamed fields)
    else if keyword ∈ childKeywords then .object (projectFields fields)
    else .object fields
  | .array items =>
    if keyword ∈ childrenKeywords then .array (projectItems items) else .array items
  | .null => .null
  | .bool value => .bool value
  | .unsigned value => .unsigned value
  | .number text => .number text
  | .string value => .string value

def projectNamed : List (String × Json) → List (String × Json)
  | [] => []
  | (name, child) :: rest => (name, decoderCompatible child) :: projectNamed rest

def projectItems : List Json → List Json
  | [] => []
  | child :: rest => decoderCompatible child :: projectItems rest

end

/-! ## Requests -/

inductive ModelOutputFormat where
  | text
  | jsonSchema (name : String) (schema : Json)

structure ModelRequest where
  stage : PipelineStage
  ordinal : Nat
  systemPrompt : String
  userPrompt : String
  seed : Nat
  maxOutputTokens : Nat
  outputFormat : ModelOutputFormat

structure TaskReference where
  id : String
  version : Nat

structure Requirements where
  inputModalities : List String
  outputMediaType : String
  structuredOutput : Bool
  maxOutputTokens : Nat

structure GenerationMessage where
  role : String
  content : String

/-- The temperature is always zero. -/
structure Generation where
  messages : List GenerationMessage
  seed : Nat
  responseSchema : Json

structure RequestCore where
  task : TaskReference
  requirements : Requirements
  generation : Generation

structure GatewayCompletion where
  mediaType : String
  content : String
  contentSha256 : String
  deploymentId : String
  taskPolicyVersion : Nat
  deriving DecidableEq, Repr

structure OutputEnvelope where
  mediaType : String
  content : String

structure ProvenanceEnvelope where
  taskPolicyVersion : Nat
  deploymentId : String

structure InferenceResponse where
  protocolVersion : Nat
  requestId : String
  status : String
  output : OutputEnvelope
  provenance : ProvenanceEnvelope

structure FailureDetail where
  code : String
  retryable : Bool
  retryAfterSeconds : Option Nat

structure FailureEnvelope where
  protocolVersion : Nat
  requestId : Option String
  status : String
  error : FailureDetail

structure AcknowledgementResponse where
  protocolVersion : Nat
  requestId : String
  status : String
  disposition : String

/-- What the client takes from `serde_json`, `sha2`, `uuid` and `chrono`.  The envelope of a
request is its identity and its core, flattened into one object. -/
structure GatewayPlatform where
  sha256Hex : String → String
  encodeValue : Json → String
  encodeCore : RequestCore → String
  encodeEnvelope : (requestId requestExpiresAt : String) → RequestCore → String
  decodeInference : List UInt8 → Option InferenceResponse
  decodeFailure : List UInt8 → Option FailureEnvelope
  decodeAcknowledgement : List UInt8 → Option AcknowledgementResponse
  parseValue : String → Option Json
  /-- A version 4 UUID in its hyphenated lowercase form. -/
  isV4 : String → Bool
  timestampText : Instant → String
  parseRfc3339 : String → Option Instant
  /-- `DateTime::<Utc>::MAX_UTC` -/
  maxUtc : Instant

/-! ## Errors -/

inductive GatewayRequestState where
  | reserved
  | submitted
  | completed
  | acknowledged
  deriving DecidableEq, Repr

inductive GatewayStoreError where
  | sqlite
  | json
  | invalidInput (message : String)
  | requestNotFound
  | requestExpired
  | semanticIdentityConflict
  | submissionIdentityConflict
  | invalidTransition (source target : GatewayRequestState)
  | completionConflict
  | outputIntegrityMismatch
  | invalidRecord (message : String)
  deriving DecidableEq, Repr

inductive GatewayClientError where
  | store (error : GatewayStoreError)
  | configuration (message : String)
  | credential
  | transport
  | expired
  | protocol (message : String)
  | rejected (code : String) (retryable : Bool) (retryAfterSeconds : Option Nat)
  deriving DecidableEq, Repr

/-- A check of the client that fails with a protocol error. -/
def ensureProtocol (condition : Bool) (message : String) : Except GatewayClientError Unit :=
  if condition then .ok () else .error (.protocol message)

section Core

variable (platform : GatewayPlatform)

/-- `request_core` -/
def requestCore (request : ModelRequest) : Except GatewayClientError RequestCore := do
  ensureProtocol (request.systemPrompt != "" && request.userPrompt != "" &&
    request.systemPrompt.length ≤ maxMessageChars &&
    request.userPrompt.length ≤ maxMessageChars && request.seed < 2 ^ 63 &&
    request.maxOutputTokens != 0 && request.maxOutputTokens ≤ maxOutputTokens)
    "model request is outside task bounds"
  match request.outputFormat with
  | .text => .error (.protocol "document gateway task requires structured output")
  | .jsonSchema _ schema => do
    ensureProtocol ((platform.encodeValue schema).utf8ByteSize ≤ maxSchemaBytes &&
      schema.isObject) "response schema is outside task bounds"
    return {
      task := ⟨"document.summary.step", 1⟩
      requirements := ⟨["text"], "application/json", true, request.maxOutputTokens⟩
      generation :=
        ⟨[⟨"system", request.systemPrompt⟩, ⟨"user", request.userPrompt⟩], request.seed,
          decoderCompatible schema⟩ }

def preflightRequestSize (core : RequestCore) : Except GatewayClientError Unit :=
  ensureProtocol ((platform.encodeEnvelope "00000000-0000-4000-8000-000000000000"
    "2000-01-01T00:00:00Z" core).utf8ByteSize ≤ maxRequestBytes) "request exceeds byte limit"

/-- `request_expiry`: a whole second, rounded up. -/
def requestExpiry (now lifetime : Instant) : Except GatewayClientError Instant := do
  let expiresAt := now + lifetime
  if platform.maxUtc < expiresAt then
    .error (.configuration "request expiry overflowed")
  else if expiresAt % nanosPerSecond = 0 then
    return expiresAt
  else if platform.maxUtc < expiresAt - expiresAt % nanosPerSecond + nanosPerSecond then
    .error (.configuration "request expiry overflowed")
  else
    return expiresAt - expiresAt % nanosPerSecond + nanosPerSecond

/-! ## Completions -/

def validDigest (value : String) : Bool :=
  value.utf8ByteSize == 64 && value.toList.all fun c => c.isDigit || ('a' ≤ c && c ≤ 'f')

/-- `validate_completion` -/
def validateCompletion (completion : GatewayCompletion) : Except GatewayStoreError Unit := do
  if completion.mediaType ≠ "application/json" ∨ completion.content = "" ∨
      maxOutputBytes < completion.content.utf8ByteSize ∨ completion.deploymentId = "" ∨
      maxDeploymentIdBytes < completion.deploymentId.utf8ByteSize ∨
      completion.taskPolicyVersion = 0 then
    .error (.invalidInput "completion violates the gateway output contract")
  else if validDigest completion.contentSha256 = false then
    .error (.invalidInput "digest is invalid")
  else if platform.sha256Hex completion.content ≠ completion.contentSha256 then
    .error .outputIntegrityMismatch
  else
    return ()

/-- `GatewayCompletion::new` -/
def newCompletion (mediaType content deploymentId : String) (taskPolicyVersion : Nat) :
    Except GatewayStoreError GatewayCompletion := do
  let completion :=
    ⟨mediaType, content, platform.sha256Hex content, deploymentId, taskPolicyVersion⟩
  validateCompletion platform completion
  return completion

/-! ## Responses -/

structure RawResponse where
  status : Nat
  contentType : Option String
  contentEncoding : Option String
  body : List UInt8

def validateResponseHeaders (response : RawResponse) : Except GatewayClientError Unit := do
  let contentType := response.contentType.map fun value =>
    trim (value.toList.takeWhile (· != ';'))
  ensureProtocol (contentType == some "application/json".toList) "response content type is invalid"
  ensureProtocol (!response.contentEncoding.any fun value =>
    !isBlank value && value.toList.map Char.toLower != "identity".toList)
    "response content encoding is unsupported"

def decodeResponse {α : Type} (decode : List UInt8 → Option α) (response : RawResponse) :
    Except GatewayClientError α := do
  validateResponseHeaders response
  ensureProtocol (response.body.length ≤ maxResponseBytes) "response exceeds byte limit"
  match decode response.body with
  | some value => return value
  | none => .error (.protocol "response JSON is invalid")

def requireSuccessStatus (response : RawResponse) : Except GatewayClientError Unit := do
  validateResponseHeaders response
  ensureProtocol (response.status == 200) "request was rejected"

def validFailureStatus (status : Nat) (code : String) (retryable : Bool) : Bool :=
  (status, code, retryable) ∈
    [(401, "unauthenticated", false), (403, "forbidden", false),
      (409, "request_expired", false), (409, "invalid_request", false),
      (410, "unknown_request", false), (422, "invalid_request", false),
      (422, "unsupported_task", false), (429, "capacity_limited", true),
      (500, "invalid_worker_output", false), (502, "invalid_worker_output", false),
      (503, "worker_unavailable", true), (504, "inference_timeout", true)]

/-- `parse_failure`, which answers the error that the caller returns. -/
def parseFailure (response : RawResponse) (expectedRequestId : String) :
    Except GatewayClientError GatewayClientError := do
  let failure ← decodeResponse platform.decodeFailure response
  let ownerlessAuthFailure := failure.requestId.isNone && failure.error.code == "unauthenticated"
  ensureProtocol (failure.protocolVersion == 1 && failure.status == "failed" &&
    (failure.requestId == some expectedRequestId || ownerlessAuthFailure) &&
    validFailureStatus response.status failure.error.code failure.error.retryable &&
    failure.error.code != "" && failure.error.code.utf8ByteSize ≤ 64 &&
    (failure.error.code.toList.all fun c => ('a' ≤ c && c ≤ 'z') || c.isDigit || c == '_') &&
    !failure.error.retryAfterSeconds.any fun seconds =>
      !failure.error.retryable || seconds == 0 || maxRetryAfterSeconds < seconds)
    "error envelope is invalid"
  return .rejected failure.error.code failure.error.retryable failure.error.retryAfterSeconds

/-- `parse_inference_response` -/
def parseInferenceResponse (response : RawResponse) (expectedRequestId : String) :
    Except GatewayClientError GatewayCompletion := do
  validateResponseHeaders response
  if response.status ≠ 200 then
    .error (← parseFailure platform response expectedRequestId)
  else
    let success ← decodeResponse platform.decodeInference response
    ensureProtocol (success.protocolVersion == 1 && success.requestId == expectedRequestId &&
      success.status == "completed" && success.output.mediaType == "application/json")
      "success envelope is invalid"
    match platform.parseValue success.output.content with
    | none => .error (.protocol "gateway output is not valid JSON")
    | some output =>
      ensureProtocol output.isObject "gateway output is not a JSON object"
      match newCompletion platform success.output.mediaType success.output.content
          success.provenance.deploymentId success.provenance.taskPolicyVersion with
      | .ok completion => return completion
      | .error _ => .error (.protocol "success provenance is invalid")

/-- The checks of `acknowledge` on the answer. -/
def checkAcknowledgement (response : RawResponse) (requestId : String) :
    Except GatewayClientError Unit := do
  requireSuccessStatus response
  let acknowledgement ← decodeResponse platform.decodeAcknowledgement response
  ensureProtocol (acknowledgement.protocolVersion == 1 &&
    acknowledgement.requestId == requestId && acknowledgement.status == "acknowledged" &&
    acknowledgement.disposition == "persisted") "acknowledgement envelope is invalid"

end Core

end DocumentSummarizer.Pipeline.Gateway
