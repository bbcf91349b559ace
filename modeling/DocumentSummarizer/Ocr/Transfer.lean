import DocumentSummarizer.Ocr.Validation

/-! # Fetching an output

One transfer of the streamed protocol: the framing of the response, the count
and digest of its chunks, and what a refusal amounts to.
-/

namespace DocumentSummarizer.Ocr

open Library Pipeline

/-- A response as its chunks arrived, with the error that cut it off.  A header's value is `none`
when it is no text. -/
structure OutputResponse where
  status : Nat
  headers : List (String × Option String)
  chunks : List (List UInt8)
  cutOff : Option TransportError

def OutputResponse.getAll (response : OutputResponse) (key : String) : List (Option String) :=
  (response.headers.filter (·.1 == key)).map (·.2)

def OutputResponse.exactly (response : OutputResponse) (key expected : String) : Bool :=
  response.getAll key == [some expected]

def declaresLength (response : OutputResponse) (byteSize : Nat) : Bool :=
  match response.getAll "content-length" with
  | [some text] => !text.isEmpty && text.toList.all Char.isDigit && text.toNat? == some byteSize
  | _ => false

def acceptableFraming (response : OutputResponse) (byteSize : Nat) : Bool :=
  declaresLength response byteSize &&
  response.exactly "content-type" "application/octet-stream" &&
  response.exactly "cache-control" "no-store" &&
  !List.any ["content-encoding", "transfer-encoding", "location", "content-disposition"] fun key =>
    response.headers.any (·.1 == key)

/-- Collects an error body. -/
def collectRefusal (response : OutputResponse) : Except TransportError (List UInt8) := do
  refuseIf (maxMetadata < response.chunks.flatten.length)
    (.invalid "output error exceeds metadata limit")
  match response.cutOff with
  | some error => .error error
  | none => return response.chunks.flatten

def refusedTransfer (serde : SerdeJson) (response : OutputResponse) :
    Except TransportError TransportError := do
  let bytes ← collectRefusal response
  let envelope ← (decodeMetadata serde serde.envelopeFromValue bytes maxMetadata).mapError .invalid
  let refusal ← errorResponse serde response.status bytes
  refuseIf (envelope.error.code = "OUTPUT_BUSY" ∧
      (response.getAll "retry-after").head? ≠ some (some "1"))
    (.invalid "OUTPUT_BUSY requires Retry-After: 1")
  return match refusal with
    | .unauthorized => .unauthorized
    | .refused message true => .uncertain message
    | _ => .invalid ("OCR output retrieval refused: " ++ envelope.error.code)

/-- Counts the chunks; more than the descriptor declares is refused as soon as it is seen. -/
def receiveChunks (byteSize : Nat) : Nat → List (List UInt8) → Except TransportError Nat
  | count, [] => .ok count
  | count, chunk :: rest =>
    if byteSize < count + chunk.length then
      .error (.invalid "OCR output exceeded declared length")
    else
      receiveChunks byteSize (count + chunk.length) rest

/-- `temporary` says whether the local file could be created and written. -/
def download (platform : OcrPlatform) (descriptor : Descriptor)
    (response : Except TransportError OutputResponse) (temporary : Except String Unit) :
    Except TransportError Unit := do
  let response ← response
  if response.status ≠ 200 then
    let error ← refusedTransfer platform.serde response
    .error error
  else
    refuseIf (acceptableFraming response descriptor.byteSize = false)
      (.invalid "invalid OCR output HTTP framing")
    temporary.mapError .localIo
    let count ← receiveChunks descriptor.byteSize 0 response.chunks
    match response.cutOff with
    | some error => .error error
    | none =>
      refuseIf (count ≠ descriptor.byteSize ∨
          platform.codec.sha256Hex response.chunks.flatten ≠ descriptor.sha256)
        (.invalid "OCR output length or digest mismatch")

/-- What is read back from the file is checked once more. -/
def verifiedContent (platform : OcrPlatform) (descriptor : Descriptor) (content : List UInt8) :
    Except String (List UInt8) := do
  refuseIf (content.length ≠ descriptor.byteSize ∨
      platform.codec.sha256Hex content ≠ descriptor.sha256) "verified OCR file changed"
  return content

end DocumentSummarizer.Ocr
