import DocumentSummarizer.Ocr.Wire
import DocumentSummarizer.Pipeline.Text

/-! # Checks of a handoff and its provider

Everything a saved handoff or a provider's reply has to pass before it changes
the handoff.  An error is the message of an `InvalidOutput`.
-/

namespace DocumentSummarizer.Ocr

open Library Pipeline

variable (platform : OcrPlatform)

/-! ## The saved request -/

def capabilityVersion (protocol : Nat) : Option String :=
  if protocol = 2 then some ocrCapabilityVersion
  else if protocol = 3 then some "1.1"
  else none

/-- The request is the one that was saved for this handoff. -/
def requestMatches (handoff : OcrHandoff) (request : JobRequest) : Bool :=
  (capabilityVersion request.protocolVersion).isSome &&
  request.jobId == handoff.providerJobId && request.capability.id == ocrCapabilityId &&
  some request.capability.version == capabilityVersion request.protocolVersion &&
  request.parameters.isEmpty &&
  match request.inputs with
  | [input] =>
    input.artifactId == handoff.sourceArtifactId && input.mediaType == pdfMediaType &&
    input.byteSize == handoff.sourceByteSize && input.sha256 == handoff.sourceSha256 &&
    input.displayName == handoff.sourceDisplayName && input.sourceAppId == appId
  | _ => false

def validateSavedRequest (handoff : OcrHandoff) : Except String JobRequest := do
  refuseIf (handoff.sourceBytes.isEmpty = true ∨ maxInputBytes < handoff.sourceBytes.length ∨
      handoff.sourceBytes.length ≠ handoff.sourceByteSize ∨
      platform.codec.sha256Hex handoff.sourceBytes ≠ handoff.sourceSha256 ∨
      platform.codec.sha256Hex (utf8 handoff.providerRequestJson) ≠
        handoff.providerRequestSha256)
    "the persisted OCR recovery request failed integrity validation"
  let request ← platform.serde.requestFromStr handoff.providerRequestJson
  refuseIf (requestMatches handoff request = false)
    "the persisted OCR request does not match its durable owner"
  return request

def savedProtocol (handoff : OcrHandoff) : Except String Nat := do
  let request ← platform.serde.requestFromStr handoff.providerRequestJson
  refuseIf (capabilityVersion request.protocolVersion = none) "unsupported saved OCR protocol"
  return request.protocolVersion

/-! ## Statuses -/

variable {τ : Type}

def terminalShape (status : JobStatus τ) : Bool :=
  match status.status with
  | .accepted | .processing => status.result.isNone && status.error.isNone
  | .completed => status.result.isSome && status.error.isNone
  | .failed => status.result.isNone && status.error.isSome

def statusMatches (handoff : OcrHandoff) (protocol : Nat) (status : JobStatus τ) : Bool :=
  status.protocolVersion == protocol && status.jobId == handoff.providerJobId &&
  status.capability.id == ocrCapabilityId &&
  some status.capability.version == capabilityVersion status.protocolVersion &&
  status.provider.appId == handoff.providerAppId &&
  status.provider.instanceId == handoff.providerInstanceId &&
  match status.inputArtifacts with
  | [input] =>
    input.artifactId == handoff.sourceArtifactId && input.mediaType == pdfMediaType &&
    input.byteSize == handoff.sourceByteSize && input.sha256 == handoff.sourceSha256
  | _ => false

def validateStatusIdentity (handoff : OcrHandoff) (status : JobStatus τ) : Except String Unit := do
  let protocol ← savedProtocol platform handoff
  refuseIf (statusMatches handoff protocol status = false)
    "provider status does not match the admitted OCR request"
  refuseIf (terminalShape status = false) "provider status has an invalid terminal shape"

/-! ## Bytes -/

def pdfPageCount (source : List UInt8) : Except String Nat :=
  okOrElse (platform.pdfPages source) "the source is not a readable PDF"

/-- Form feeds separate the pages of the text. -/
def textPages (text : List UInt8) : Nat :=
  text.count 0x0c + 1

def validatePairBytes (handoff : OcrHandoff) (pdfBytes textBytes : List UInt8) :
    Except String Unit := do
  refuseIf ([0xef, 0xbb, 0xbf].isPrefixOf textBytes = true)
    "OCR text is empty or begins with a byte-order mark"
  let text ← okOrElse (String.fromUTF8? ⟨textBytes.toArray⟩) "OCR text is not UTF-8"
  refuseIf (isBlank text = true) "OCR text is empty or begins with a byte-order mark"
  let pageCount ← pdfPageCount platform handoff.sourceBytes
  refuseIf (textPages textBytes ≠ pageCount)
    "OCR text page segmentation does not match the source"
  let canonical ← (platform.canonicalTaggedOcrText pdfBytes).mapError
    ("tagged OCR PDF is invalid: " ++ ·)
  refuseIf (canonical ≠ textBytes)
    "OCR PDF canonical text does not match the paired text output"

/-! ## Outputs of protocol 2 -/

structure ValidatedOutputs where
  pdfArtifactId : String
  pdfSha256 : String
  pdfBytes : List UInt8
  textArtifactId : String
  textSha256 : String
  textBytes : List UInt8

def oneOutput (outputs : List OutputArtifact) (mediaType : String) :
    Except String OutputArtifact :=
  match outputs.filter (·.mediaType == mediaType) with
  | [] => .error ("OCR output " ++ mediaType ++ " is missing")
  | [output] => .ok output
  | _ => .error ("OCR output " ++ mediaType ++ " is duplicated")

def decodeOutput (output : OutputArtifact) (limit : Nat) : Except String (List UInt8) := do
  let bytes ← okOrElse (platform.base64Decode output.payloadBase64)
    "OCR output is not canonical base64"
  refuseIf (platform.base64Encode bytes ≠ output.payloadBase64 ∨ bytes.isEmpty = true ∨
      limit < bytes.length ∨ bytes.length ≠ output.byteSize ∨
      platform.codec.sha256Hex bytes ≠ output.sha256)
    "OCR output integrity does not match its descriptor"
  return bytes

/-- The caller has checked that the status carries a result. -/
def validateCompletedOutputs (handoff : OcrHandoff) (result : JobResult OutputArtifact) :
    Except String ValidatedOutputs := do
  refuseIf (result.outputs.length ≠ 2) "completed OCR status must contain exactly two outputs"
  let pdf ← oneOutput result.outputs ocrInputMediaType
  let text ← oneOutput result.outputs textMediaType
  refuseIf (pdf.artifactId = text.artifactId ∨ pdf.artifactId = handoff.sourceArtifactId ∨
      text.artifactId = handoff.sourceArtifactId)
    "OCR output artifact identities are not distinct"
  let pdfBytes ← decodeOutput platform pdf maxPdfBytes
  let textBytes ← decodeOutput platform text maxTextBytes
  validatePairBytes platform handoff pdfBytes textBytes
  return ⟨pdf.artifactId, pdf.sha256, pdfBytes, text.artifactId, text.sha256, textBytes⟩

/-! ## Outputs of protocol 3 -/

def isLowerHex (c : Char) : Bool :=
  c.isDigit || ('a' ≤ c && c ≤ 'f')

/-- A version 4 UUID of the RFC 4122 variant, hyphenated and in lower case. -/
def canonicalUuid (value : String) : Bool :=
  value.toList.length == 36 &&
    value.toList.zipIdx.all fun (c, i) =>
      if i = 8 ∨ i = 13 ∨ i = 18 ∨ i = 23 then c == '-'
      else if i = 14 then c == '4'
      else if i = 19 then c == '8' || c == '9' || c == 'a' || c == 'b'
      else isLowerHex c

def acceptableDescriptor (status : Status) (output : Descriptor) (limit : Nat) : Bool :=
  canonicalUuid output.artifactId && isSha256Hex output.sha256 && output.byteSize != 0 &&
  output.byteSize ≤ limit && 1 ≤ output.displayName.length && output.displayName.length ≤ 255 &&
  !status.inputArtifacts.any (·.artifactId == output.artifactId)

/-- The PDF and the text descriptor of a completed status. -/
def pair (status : Status) : Except String (Descriptor × Descriptor) := do
  let bad := "invalid v3 OCR descriptors"
  let result ← okOrElse status.result bad
  refuseIf (result.outputs.length ≠ 2) bad
  let pdf ← okOrElse (result.outputs.find? (·.mediaType == ocrInputMediaType)) bad
  let text ← okOrElse (result.outputs.find? (·.mediaType == textMediaType)) bad
  refuseIf (acceptableDescriptor status pdf maxPdf = false ∨
      acceptableDescriptor status text maxTextBytes = false) bad
  refuseIf (pdf.artifactId = text.artifactId) bad
  return (pdf, text)

/-- The message that a provider's own code prescribes. -/
def terminalMessage (code : String) : Option String :=
  if code = "DOCUMENT_INVALID" then
    some "The PDF is not a readable document with at least one page."
  else if code = "INPUT_PAGE_LIMIT_EXCEEDED" then some "The PDF has more than 100 pages."
  else if code = "OUTPUT_TEXT_LIMIT_EXCEEDED" then
    some "The recognized text is larger than this provider can return."
  else if code = "OUTPUT_PDF_LIMIT_EXCEEDED" then
    some "The reconstructed PDF is larger than this provider can return."
  else if code = "NO_OCR_TEXT" then some "No text was detected in the document."
  else if code = "OUTPUT_PDF_BUDGET_EXCEEDED" then
    some "The retained source PDF leaves insufficient room for the OCR layer in the output budget."
  else none

def transportCodes : List String :=
  ["PROVIDER_BUSY", "JOB_NOT_FOUND", "MALFORMED_REQUEST", "OUTPUT_BUSY", "OUTPUT_NOT_READY",
    "OUTPUT_NOT_FOUND", "OUTPUT_UNAVAILABLE"]

def validTerminalError (error : JobError) : Bool :=
  validError error &&
  !(terminalMessage error.code).any (fun message => error.retryable || error.message != message) &&
  !transportCodes.contains error.code

def validateDescriptors (status : Status) : Except String Unit :=
  if status.status = .completed then (pair status).map fun _ => () else .ok ()

def validate (handoff : OcrHandoff) (status : Status) : Except String Unit := do
  validateStatusIdentity platform handoff status
  refuseIf (status.protocolVersion ≠ 3 ∨ canonicalUuid status.jobId = false ∨
      canonicalUuid status.provider.instanceId = false ∨
      status.inputArtifacts.any (fun i => !canonicalUuid i.artifactId || !isSha256Hex i.sha256) =
        true)
    "invalid v3 OCR identity"
  validateDescriptors status
  refuseIf (status.error.any (!validTerminalError ·) = true) "invalid OCR terminal error"

/-- The bytes kept for an output are what its descriptor declares. -/
def retains (descriptor : Descriptor) (artifactId : Option String)
    (content : Option (List UInt8)) : Bool :=
  artifactId == some descriptor.artifactId &&
    content.any fun bytes => bytes.length == descriptor.byteSize &&
      platform.codec.sha256Hex bytes == descriptor.sha256

def validateRetainedPair (handoff : OcrHandoff) : Except String Unit := do
  let _ ← validateSavedRequest platform handoff
  let encoded ← okOrElse handoff.providerStatusJson "saved OCR completion is missing"
  let status ← decodeStatus platform.serde encoded
  validate platform handoff status
  let (pdf, text) ← pair status
  refuseIf (retains platform pdf handoff.ocrPdfArtifactId handoff.ocrPdfBytes = false ∨
      retains platform text handoff.textArtifactId handoff.textBytes = false)
    "retained OCR pair failed descriptor validation"

def hasSavedCompletion (handoff : OcrHandoff) : Except String Bool := do
  let protocol ← savedProtocol platform handoff
  if protocol ≠ 3 then
    return false
  else match handoff.providerStatusJson with
    | none => return false
    | some encoded =>
      let status ← decodeStatus platform.serde encoded
      validate platform handoff status
      return status.status == .completed

/-- The derived PDF may be written where the handoff says. -/
def validateRetainedDerived (handoff : OcrHandoff) : Except String (List UInt8) := do
  refuseIf (handoff.derivedPath ≠ platform.expectedDerivedPath handoff.handoffId)
    "the persisted OCR snapshot path is outside its owner"
  let bytes ← okOrElse handoff.ocrPdfBytes "retained OCR PDF is missing"
  let protocol ← savedProtocol platform handoff
  (if protocol = 3 then validateRetainedPair platform handoff else .ok ())
  refuseIf (platform.codec.sha256Hex bytes ≠ handoff.ocrPdfSha256.getD "")
    "retained OCR PDF integrity is invalid"
  return bytes

end DocumentSummarizer.Ocr
