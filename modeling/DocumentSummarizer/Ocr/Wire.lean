import DocumentSummarizer.Pipeline.OcrHandoff
import DocumentSummarizer.Pipeline.GatewayWire

/-! # The OCR provider's messages

Job requests and statuses of both protocols, how a response is read within its
bound, and the strict decoding that the streamed protocol adds before `serde`.
-/

namespace DocumentSummarizer.Ocr

open Library Pipeline

def ocrCapabilityId : String := "document.ocr"
def ocrCapabilityVersion : String := "1.0"
def ocrInputMediaType : String := "application/vnd.local-connect.ocr-pdf"
def pdfMediaType : String := "application/pdf"
def textMediaType : String := "text/plain"
def appId : String := "document-summarizer"
def maxInputBytes : Nat := 32 * 1024 * 1024
def maxPdfBytes : Nat := 2 * 1024 * 1024
def maxTextBytes : Nat := 256 * 1024
def maxStatusBytes : Nat := 8 * 1024 * 1024
def maxPdf : Nat := 36 * 1024 * 1024
def maxMetadata : Nat := 64 * 1024

/-! ## Messages -/

structure CapabilityRef where
  id : String
  version : String
  deriving DecidableEq

structure InputArtifact where
  artifactId : String
  mediaType : String
  byteSize : Nat
  sha256 : String
  displayName : String
  sourceAppId : String
  deriving DecidableEq

structure ProviderRef where
  appId : String
  instanceId : String
  deriving DecidableEq

inductive JobState where
  | accepted
  | processing
  | completed
  | failed
  deriving DecidableEq

structure ArtifactProvenance where
  artifactId : String
  mediaType : String
  byteSize : Nat
  sha256 : String
  deriving DecidableEq

structure JobError where
  code : String
  message : String
  retryable : Bool
  deriving DecidableEq

structure JobResult (τ : Type) where
  outputs : List τ
  deriving DecidableEq

structure JobStatus (τ : Type) where
  protocolVersion : Nat
  jobId : String
  capability : CapabilityRef
  provider : ProviderRef
  status : JobState
  createdAt : DateTime
  updatedAt : DateTime
  inputArtifacts : List ArtifactProvenance
  result : Option (JobResult τ)
  error : Option JobError
  deriving DecidableEq

/-- An output of protocol 2, its bytes inline. -/
structure OutputArtifact where
  artifactId : String
  mediaType : String
  displayName : String
  byteSize : Nat
  sha256 : String
  payloadBase64 : String
  deriving DecidableEq

/-- An output of protocol 3, its bytes to be fetched. -/
structure Descriptor where
  artifactId : String
  mediaType : String
  displayName : String
  byteSize : Nat
  sha256 : String
  deriving DecidableEq

abbrev Status := JobStatus Descriptor

structure JobRequest where
  protocolVersion : Nat
  jobId : String
  capability : CapabilityRef
  inputs : List InputArtifact
  parameters : List (String × Gateway.Json)

structure ErrorEnvelope where
  protocolVersion : Nat
  error : JobError

inductive ReceivedStatus where
  | inline (status : JobStatus OutputArtifact)
  | streamed (status : Status)

def ReceivedStatus.state : ReceivedStatus → JobState
  | .inline status => status.status
  | .streamed status => status.status

structure LiveOcrProvider where
  appId : String
  instanceId : String
  baseUrl : String
  protocolVersion : Nat
  deriving DecidableEq

/-! ## Errors -/

inductive OcrConsumerError where
  | store (error : StoreError)
  | discovery (message : String)
  | transport (message : String)
  | invalidOutput (message : String)
  | providerFailed (message : String)
  | providerUnavailable (instanceId : String)
  | deadline
  | cancelled
  | io (message : String)

/-- The text of an `InvalidOutput`, which a failed handoff records. -/
def invalidOutputText (message : String) : String :=
  "OCR provider returned invalid data: " ++ message

inductive TransportError where
  | localIo (message : String)
  | unauthorized
  | notFound
  | refused (message : String) (retryable : Bool)
  | uncertain (message : String)
  | invalid (message : String)

def mapTransport : TransportError → OcrConsumerError
  | .localIo message => .io message
  | .unauthorized => .transport "provider token is stale"
  | .refused message _ => .providerFailed message
  | .notFound => .transport "the provider job is unavailable"
  | .uncertain message => .transport message
  | .invalid message => .invalidOutput message

/-! ## Third parties -/

/-- `serde_json` at the types of the messages.  `fromSlice` reads one value with the members of
an object as they are written; an error comes with its text. -/
structure SerdeJson where
  fromSlice : List UInt8 → Except String Gateway.Json
  /-- A visitor's error as it is reported for the text. -/
  located : List UInt8 → String → String
  statusFromValue : Gateway.Json → Except String Status
  envelopeFromValue : Gateway.Json → Except String ErrorEnvelope
  statusToString : Status → String
  inlineStatusFromSlice : List UInt8 → Except String (JobStatus OutputArtifact)
  inlineEnvelopeFromSlice : List UInt8 → Except String ErrorEnvelope
  inlineStatusToString : JobStatus OutputArtifact → String
  requestFromStr : String → Except String JobRequest
  requestToString : JobRequest → String

/-- What the consumer takes from SHA-256, `serde`, base64, `lopdf` and the URL and path types. -/
structure OcrPlatform where
  codec : Codec
  serde : SerdeJson
  base64Decode : String → Option (List UInt8)
  base64Encode : List UInt8 → String
  /-- The number of pages of a readable PDF. -/
  pdfPages : List UInt8 → Option Nat
  canonicalTaggedOcrText : List UInt8 → Except String (List UInt8)
  isLoopbackUrl : String → Bool
  /-- The snapshot's path under the application data directory. -/
  expectedDerivedPath : String → String

def utf8 (text : String) : List UInt8 :=
  text.toUTF8.data.toList

/-! ## Strict metadata -/

structure NestingScan where
  depth : Int
  quoted : Bool
  escaped : Bool

def NestingScan.start : NestingScan := ⟨0, false, false⟩

/-- One byte of the scan; a seventeenth level is refused. -/
def NestingScan.step (scan : NestingScan) (byte : UInt8) : Option NestingScan :=
  if scan.quoted then
    if scan.escaped then
      some { scan with escaped := false }
    else if byte = 0x5c then
      some { scan with escaped := true }
    else if byte = 0x22 then
      some { scan with quoted := false }
    else
      some scan
  else if byte = 0x22 then
    some { scan with quoted := true }
  else if byte = 0x7b ∨ byte = 0x5b then
    if scan.depth + 1 > 16 then none else some { scan with depth := scan.depth + 1 }
  else if byte = 0x7d ∨ byte = 0x5d then
    some { scan with depth := scan.depth - 1 }
  else
    some scan

def withinNesting (bytes : List UInt8) : Bool :=
  (bytes.foldlM NestingScan.step NestingScan.start).isSome

mutual

/-- No object at any depth repeats a member. -/
def uniqueMembers : Gateway.Json → Bool
  | .array items => uniqueItems items
  | .object fields => uniqueFields fields
  | .null | .bool _ | .unsigned _ | .number _ | .string _ => true

def uniqueItems : List Gateway.Json → Bool
  | [] => true
  | item :: rest => uniqueMembers item && uniqueItems rest

def uniqueFields : List (String × Gateway.Json) → Bool
  | [] => true
  | (name, value) :: rest =>
    uniqueMembers value && !rest.any (·.1 == name) && uniqueFields rest

end

def member (value : Gateway.Json) (name : String) : Option Gateway.Json :=
  match value with
  | .object fields => (fields.find? (·.1 == name)).map (·.2)
  | _ => none

def isNull : Gateway.Json → Bool
  | .null => true
  | _ => false

def hasNullTerminalMember (value : Gateway.Json) : Bool :=
  (member value "status").isSome &&
    ["result", "error"].any fun key => (member value key).any isNull

/-- The error is the message of a `TransportError::Invalid`. -/
def decodeMetadata {α : Type} (serde : SerdeJson) (fromValue : Gateway.Json → Except String α)
    (bytes : List UInt8) (limit : Nat) : Except String α := do
  refuseIf (limit < bytes.length) "metadata exceeds its byte limit"
  refuseIf (withinNesting bytes = false) "metadata nesting exceeds 16"
  let value ← serde.fromSlice bytes
  refuseIf (uniqueMembers value = false) (serde.located bytes "duplicate JSON member")
  refuseIf (hasNullTerminalMember value = true) "status contains a null terminal member"
  fromValue value

/-- Reads a saved status. -/
def decodeStatus (serde : SerdeJson) (encoded : String) : Except String Status :=
  decodeMetadata serde serde.statusFromValue (utf8 encoded) maxMetadata

/-! ## Responses -/

/-- The body as it arrived, with the error that cut it off. -/
structure HttpResponse where
  status : Nat
  contentLength : Option Nat
  body : List UInt8
  cutOff : Option (Bool × String)

inductive ReadError where
  | invalidData (message : String)
  | timedOut (message : String)
  | other (message : String)

def readBoundedResponse (response : HttpResponse) (limit : Nat) :
    Except ReadError (List UInt8) := do
  refuseIf (response.contentLength.any (limit < ·) = true)
    (.invalidData "provider response exceeded its byte limit")
  refuseIf (limit < response.body.length)
    (.invalidData "provider response exceeded its byte limit")
  match response.cutOff with
  | some (true, message) => .error (.timedOut message)
  | some (false, message) => .error (.other message)
  | none => return response.body

/-- An answer of protocol 2. -/
def answer (serde : SerdeJson) (response : HttpResponse) :
    Except TransportError (JobStatus OutputArtifact) := do
  let bytes ← (readBoundedResponse response maxStatusBytes).mapError fun
    | .timedOut message => .uncertain message
    | .invalidData message | .other message => .invalid message
  if 200 ≤ response.status ∧ response.status < 300 then
    (serde.inlineStatusFromSlice bytes).mapError .invalid
  else
    let envelope ← (serde.inlineEnvelopeFromSlice bytes).mapError .invalid
    refuseIf (response.status = 404 ∧ envelope.error.code = "JOB_NOT_FOUND") .notFound
    .error (.refused envelope.error.message envelope.error.retryable)

def validError (error : JobError) : Bool :=
  1 ≤ error.message.length && error.message.length ≤ 1000 &&
    1 ≤ error.code.utf8ByteSize && error.code.utf8ByteSize ≤ 100 &&
    error.code.toList.all fun c => c.isUpper || c.isDigit || c == '_'

/-- The HTTP status and the retry flag that a code prescribes. -/
def errorPolicy (code : String) : Option (Nat × Bool) :=
  if code = "OUTPUT_BUSY" then some (429, true)
  else if code = "OUTPUT_NOT_READY" then some (409, true)
  else if code = "OUTPUT_NOT_FOUND" ∨ code = "JOB_NOT_FOUND" then some (404, false)
  else if code = "OUTPUT_UNAVAILABLE" then some (500, false)
  else if code = "MALFORMED_REQUEST" then some (400, false)
  else if code = "PROVIDER_BUSY" then some (429, true)
  else none

/-- What an error response of protocol 3 says, or why it is invalid. -/
def errorResponse (serde : SerdeJson) (status : Nat) (bytes : List UInt8) :
    Except TransportError TransportError := do
  let envelope ← (decodeMetadata serde serde.envelopeFromValue bytes maxMetadata).mapError .invalid
  refuseIf (envelope.protocolVersion ≠ 3 ∨ validError envelope.error = false)
    (.invalid "invalid v3 HTTP error")
  refuseIf ((errorPolicy envelope.error.code).any (· ≠ (status, envelope.error.retryable)) = true)
    (.invalid "invalid v3 HTTP error policy")
  if status = 401 then
    return .unauthorized
  else if status = 404 ∧ envelope.error.code = "JOB_NOT_FOUND" then
    return .notFound
  else
    return .refused envelope.error.message envelope.error.retryable

/-- An answer of protocol 3. -/
def streamedAnswer (serde : SerdeJson) (response : HttpResponse) :
    Except TransportError Status := do
  let bytes ← (readBoundedResponse response maxMetadata).mapError fun
    | .invalidData message => .invalid message
    | .timedOut message | .other message => .uncertain message
  if response.status = 200 ∨ response.status = 202 then
    (decodeMetadata serde serde.statusFromValue bytes maxMetadata).mapError .invalid
  else
    let error ← errorResponse serde response.status bytes
    .error error

def answerFor (serde : SerdeJson) (protocol : Nat) (response : HttpResponse) :
    Except TransportError ReceivedStatus :=
  if protocol = 2 then (answer serde response).map .inline
  else if protocol = 3 then (streamedAnswer serde response).map .streamed
  else .error (.invalid "unsupported OCR protocol")

end DocumentSummarizer.Ocr
