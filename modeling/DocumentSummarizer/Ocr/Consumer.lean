import DocumentSummarizer.Ocr.Transfer
import DocumentSummarizer.Pipeline.Execution
import DocumentSummarizer.Library.Process

/-! # The OCR consumer

The runner that drives a handoff and everything that may run beside it, as
processes over the store.  Each read, statement or transaction is one step; the
clock, the provider and the files answer as they please.  A loop is given the
number of its rounds, and a run that needs more of them waits.
-/

namespace DocumentSummarizer.Ocr

open Library Pipeline

/-! ## The world -/

/-- A status that was applied: the phase in the runner's copy of the handoff, and the one found. -/
structure Application where
  status : ReceivedStatus
  readBack : OcrPhase
  found : Option OcrPhase

/-- The store, with a record of the statuses applied to it. -/
structure HandoffWorld where
  store : Store
  applications : List Application

/-- What one step may learn from outside. -/
structure Answer where
  ambient : Ambient
  /-- The store's own failure. -/
  fault : Option StoreError
  cancellationRequested : Bool
  expired : Bool
  providers : Except OcrConsumerError (List LiveOcrProvider)
  source : Except String (List UInt8)
  response : Except TransportError HttpResponse
  output : Except TransportError OutputResponse
  temporary : Except String Unit
  reread : Except String (List UInt8)
  materialized : Except OcrConsumerError Unit

abbrev Consumer (α : Type) := Process HandoffWorld Answer OcrConsumerError α

namespace Consumer

def ask {α : Type} (read : Answer → Except OcrConsumerError α) : Consumer α :=
  .atomic fun a w => (read a, w)

def query {α : Type} (read : Answer → Store → Except OcrConsumerError α) : Consumer α :=
  .atomic fun a w =>
    match a.fault with
    | some error => (.error (.store error), w)
    | none => (read a w.store, w)

/-- One statement or transaction. -/
def update {α : Type} (body : Answer → Store → Except StoreError (α × Store)) : Consumer α :=
  .atomic fun a w =>
    match a.fault with
    | some error => (.error (.store error), w)
    | none =>
      match body a w.store with
      | .ok (result, s) => (.ok result, { w with store := s })
      | .error error => (.error (.store error), w)

def checked {α : Type} (result : Except String α) : Consumer α :=
  .lift (result.mapError .invalidOutput)

/-- The rounds are used up. -/
def outOfRounds {α : Type} : Consumer α :=
  .step (fun _ _ => none) fun _ _ => .done (.error .deadline)

end Consumer

open Consumer

section Runner

variable (platform : OcrPlatform)

def reload (handoffId : String) : Consumer OcrHandoff :=
  query fun _ s => okOrElse (getOcrHandoff s handoffId)
    (.store (.invalidOcrHandoff "the OCR handoff disappeared"))

def fail (handoffId : String) (expectedPhase : OcrPhase) (code message : String)
    (retryable : Bool) : Consumer Bool :=
  update fun _ => failOcrHandoff platform.codec handoffId expectedPhase code message retryable

def transition (handoffId : String) (expectedPhase nextPhase : OcrPhase) : Consumer Bool :=
  update fun _ => transitionOcrHandoff platform.codec handoffId expectedPhase nextPhase none

/-! ## Cancellation -/

def rootCancellationRequested (rootRunId : String) : Consumer Bool :=
  query fun a s => do
    let root ← okOrElse (getPipelineRun s rootRunId) (.store (.runNotFound rootRunId))
    return a.cancellationRequested || root.cancellationRequested ||
      root.state == .cancelling || root.state == .cancelled

/-- Fails the handoff in whatever phase it is, unless a child was admitted. -/
def cancelHandoff : Nat → OcrHandoff → Consumer Unit
  | 0, _ => outOfRounds
  | rounds + 1, current =>
    match current.phase with
    | .childAdmitted | .completed => pure ()
    | .failed => Process.fail .cancelled
    | .prepared | .submissionUncertain | .running | .outputReady => do
      let changed ← fail platform current.handoffId current.phase "OCR_CANCELLED"
        "OCR processing was cancelled before child admission" false
      if changed then
        Process.fail .cancelled
      else
        let current ← reload current.handoffId
        cancelHandoff rounds current

def cancellationCheckpoint (rounds : Nat) (handoff : OcrHandoff) : Consumer Unit := do
  let requested ← rootCancellationRequested handoff.rootRunId
  if requested then cancelHandoff platform rounds handoff else pure ()

/-! ## Applying a status -/

/-- A statement, and what is returned once it has succeeded. -/
def andReturn {α : Type} (statement : Except StoreError (α × Store)) (s : Store)
    (outcome : Except OcrConsumerError Unit) : Except OcrConsumerError Unit × Store :=
  match statement with
  | .ok (_, t) => (outcome, t)
  | .error error => (.error (.store error), s)

def rejectStatus (handoff : OcrHandoff) (message : String) (s : Store) :
    Except OcrConsumerError Unit × Store :=
  andReturn (failOcrHandoff platform.codec handoff.handoffId handoff.phase "OCR_OUTPUT_INVALID"
    (invalidOutputText message) false s) s (.error (.invalidOutput message))

def applyFailure (handoff : OcrHandoff) (error : JobError) (s : Store) :
    Except OcrConsumerError Unit × Store :=
  andReturn (failOcrHandoff platform.codec handoff.handoffId handoff.phase error.code error.message
    error.retryable s) s (.error (.providerFailed error.message))

def storedOutput (encoded : String) (output : ValidatedOutputs) : OcrOutput where
  providerStatusJson := encoded
  pdfArtifactId := output.pdfArtifactId
  pdfSha256 := output.pdfSha256
  pdfBytes := output.pdfBytes
  textArtifactId := output.textArtifactId
  textSha256 := output.textSha256
  textBytes := output.textBytes

def applyInlineStatus (handoff : OcrHandoff) (status : JobStatus OutputArtifact) (s : Store) :
    Except OcrConsumerError Unit × Store :=
  match validateStatusIdentity platform handoff status with
  | .error message => rejectStatus platform handoff message s
  | .ok () =>
    let encoded := platform.serde.inlineStatusToString status
    match status.status with
    | .accepted | .processing =>
      andReturn (transitionOcrHandoff platform.codec handoff.handoffId handoff.phase .running
        (some encoded) s) s (.ok ())
    | .failed =>
      match status.error with
      | none => (.error (.invalidOutput "failed OCR status omitted its error"), s)
      | some error => applyFailure platform handoff error s
    | .completed =>
      let validated := do
        let result ← okOrElse status.result "validated completed shape"
        validateCompletedOutputs platform handoff result
      match validated with
      | .error message => rejectStatus platform handoff message s
      | .ok output =>
        andReturn (storeOcrOutputs platform.codec handoff.handoffId handoff.phase
          (storedOutput encoded output) s) s (.ok ())

/-- Whether the status is to be saved, or is older than the saved completion. -/
def checkCompletion (current : OcrHandoff) (status : Status) : Except String Bool := do
  validate platform current status
  let completed ← hasSavedCompletion platform current
  if completed = false then
    return true
  else if status.status = .accepted ∨ status.status = .processing then
    return false
  else
    let previous ← decodeStatus platform.serde (current.providerStatusJson.getD "")
    refuseIf (previous.result ≠ status.result) "completed OCR descriptors changed"
    return true

/-- One transaction, on the row as it is then. -/
def saveStatus (handoff : OcrHandoff) (status : Status) (s : Store) :
    Except OcrConsumerError Unit × Store :=
  match getOcrHandoff s handoff.handoffId with
  | none => (.error (.store (.invalidOcrHandoff "the OCR handoff disappeared")), s)
  | some current =>
    if current.phase ≠ handoff.phase then
      (.ok (), s)
    else
      match checkCompletion platform current status with
      | .error message => rejectStatus platform current message s
      | .ok false => (.ok (), s)
      | .ok true =>
        match status.error with
        | some error => applyFailure platform current error s
        | none =>
          andReturn (transitionOcrHandoff platform.codec current.handoffId current.phase .running
            (some (platform.serde.statusToString status)) s) s (.ok ())

def applyReceived (handoff : OcrHandoff) (status : ReceivedStatus) (s : Store) :
    Except OcrConsumerError Unit × Store :=
  match status with
  | .inline status => applyInlineStatus platform handoff status s
  | .streamed status => saveStatus platform handoff status s

def applyStatus (handoff : OcrHandoff) (status : ReceivedStatus) : Consumer Unit :=
  .atomic fun a w =>
    match a.fault with
    | some error => (.error (.store error), w)
    | none =>
      let found := (getOcrHandoff w.store handoff.handoffId).map (·.phase)
      let (outcome, s) := applyReceived platform handoff status w.store
      (outcome, ⟨s, ⟨status, handoff.phase, found⟩ :: w.applications⟩)

/-! ## Retrieval -/

/-- Asks the provider; submitting and polling differ in the request only. -/
def exchange (provider : LiveOcrProvider) : Consumer (Except TransportError ReceivedStatus) :=
  ask fun a => .ok do
    let response ← a.response
    answerFor platform.serde provider.protocolVersion response

def refreshProvider (provider : LiveOcrProvider) : Consumer LiveOcrProvider := do
  let refreshed ← ask fun a => do
    let providers ← a.providers
    okOrElse (providers.find? fun p => p.instanceId == provider.instanceId &&
      p.protocolVersion == provider.protocolVersion) (.providerUnavailable provider.instanceId)
  if refreshed.appId ≠ provider.appId ∨ refreshed.instanceId ≠ provider.instanceId ∨
      refreshed.protocolVersion ≠ 3 ∨ platform.isLoopbackUrl refreshed.baseUrl = false then
    Process.fail (.invalidOutput "OCR rediscovery changed provider identity")
  else
    pure refreshed

/-- The provider still reports the completion that was saved. -/
def confirmCompletion (handoff : OcrHandoff) (response : Except TransportError ReceivedStatus) :
    Except OcrConsumerError Status := do
  let received ← response.mapError mapTransport
  match received with
  | .inline _ => .error (.invalidOutput "OCR recovery changed protocol")
  | .streamed status =>
    (validate platform handoff status).mapError .invalidOutput
    let saved ← (decodeStatus platform.serde (handoff.providerStatusJson.getD "")).mapError
      .invalidOutput
    refuseIf (status.status ≠ .completed ∨ status.result ≠ saved.result)
      (.invalidOutput "completed OCR descriptors changed")
    return status

def reconcile (handoff : OcrHandoff) (provider : LiveOcrProvider) :
    Consumer (LiveOcrProvider × Status) := do
  let response ← exchange platform provider
  match response with
  | .error .unauthorized =>
    let provider ← refreshProvider platform provider
    let response ← exchange platform provider
    let status ← Process.lift (confirmCompletion platform handoff response)
    pure (provider, status)
  | response =>
    let status ← Process.lift (confirmCompletion platform handoff response)
    pure (provider, status)

/-- Sleeps until the clock says so, watching for a cancellation. -/
def waitForRetry : Nat → OcrHandoff → Consumer Unit
  | 0, _ => outOfRounds
  | rounds + 1, handoff => do
    let expired ← ask fun a => .ok a.expired
    if expired then
      pure ()
    else
      cancellationCheckpoint platform rounds handoff
      waitForRetry rounds handoff

def attemptOutput (rounds : Nat) (handoff : OcrHandoff) (descriptor : Descriptor) :
    Consumer (Except TransportError Unit) := do
  cancellationCheckpoint platform rounds handoff
  ask fun a => .ok (download platform descriptor a.output a.temporary)

/-- The attempts at one output; so many more are left after this one. -/
def fetchOutput (rounds : Nat) (handoff : OcrHandoff) (descriptor : Descriptor) :
    Nat → LiveOcrProvider → Consumer LiveOcrProvider
  | 0, provider => do
    let result ← attemptOutput platform rounds handoff descriptor
    match result with
    | .ok () => pure provider
    | .error error => Process.fail (mapTransport error)
  | retries + 1, provider => do
    let result ← attemptOutput platform rounds handoff descriptor
    match result with
    | .ok () => pure provider
    | .error .unauthorized => do
      let refreshed ← refreshProvider platform provider
      let (provider, _) ← reconcile platform handoff refreshed
      waitForRetry platform rounds handoff
      fetchOutput rounds handoff descriptor retries provider
    | .error (.uncertain _) => do
      waitForRetry platform rounds handoff
      fetchOutput rounds handoff descriptor retries provider
    | .error error => Process.fail (mapTransport error)

def readBack (descriptor : Descriptor) : Consumer (List UInt8) :=
  ask fun a => do
    let content ← a.reread.mapError .io
    (verifiedContent platform descriptor content).mapError .invalidOutput

def retrievedOutput (handoff : OcrHandoff) (pdf text : Descriptor)
    (pdfBytes textBytes : List UInt8) : OcrOutput where
  providerStatusJson := handoff.providerStatusJson.getD ""
  pdfArtifactId := pdf.artifactId
  pdfSha256 := pdf.sha256
  pdfBytes := pdfBytes
  textArtifactId := text.artifactId
  textSha256 := text.sha256
  textBytes := textBytes

def retrieveVerified (rounds : Nat) (handoff : OcrHandoff) (provider : LiveOcrProvider) :
    Consumer Unit := do
  let (provider, status) ← reconcile platform handoff provider
  let (pdf, text) ← checked (pair status)
  let provider ← fetchOutput platform rounds handoff pdf 2 provider
  let _ ← fetchOutput platform rounds handoff text 2 provider
  cancellationCheckpoint platform rounds handoff
  let pdfBytes ← readBack platform pdf
  let textBytes ← readBack platform text
  checked (validatePairBytes platform handoff pdfBytes textBytes)
  cancellationCheckpoint platform rounds handoff
  let _ ← update fun _ => storeOcrOutputs platform.codec handoff.handoffId handoff.phase
    (retrievedOutput handoff pdf text pdfBytes textBytes)
  pure ()

def retrieve (rounds : Nat) (handoff : OcrHandoff) (provider : LiveOcrProvider) :
    Consumer Unit := do
  let result ← Process.attempt do
    let _ ← checked (validateSavedRequest platform handoff)
    retrieveVerified platform rounds handoff provider
  cancellationCheckpoint platform rounds handoff
  match result with
  | .error (.invalidOutput message) => do
    let _ ← fail platform handoff.handoffId handoff.phase "OCR_OUTPUT_INVALID" message false
    Process.fail (.invalidOutput message)
  | result => Process.lift result

/-! ## The runner -/

def materializeDerived (handoff : OcrHandoff) : Consumer Unit := do
  let _ ← checked (validateRetainedDerived platform handoff)
  ask fun a => a.materialized

def childDocument (handoff : OcrHandoff) (pdf : List UInt8) (now : DateTime) :
    IngestedDocument where
  documentId := handoff.childDocumentId
  originalFilename := handoff.sourceDisplayName
  fileType := "pdf"
  sourceType := .ocrText
  byteSize := pdf.length
  contentHash := platform.codec.sha256Hex pdf
  localSourcePath := handoff.derivedPath
  createdAt := now

def admitChild (handoff : OcrHandoff) : Consumer PipelineRun := do
  let pdf ← checked (okOrElse handoff.ocrPdfBytes "retained OCR PDF is missing")
  update fun a => admitOcrChild platform.codec a.ambient handoff
    (childDocument platform handoff pdf (a.ambient.now 0))
    (prepareReceivedRun handoff.childRunId handoff.childDocumentId (a.ambient.now 0))

/-- The reply to a submission, applied to the handoff as it was read back. -/
def settleSubmission (handoff : OcrHandoff) :
    Except TransportError ReceivedStatus → Consumer (Option String)
  | .ok status => do
    applyStatus platform handoff status
    pure none
  | .error (.refused message retryable) => do
    let _ ← fail platform handoff.handoffId .submissionUncertain "OCR_PROVIDER_FAILED" message
      retryable
    Process.fail (.providerFailed message)
  | .error (.uncertain _) => pure none
  | .error error => Process.fail (mapTransport error)

def submitPrepared (rounds : Nat) (handoff : OcrHandoff) (provider : LiveOcrProvider) :
    Consumer (Option String) :=
  match validateSavedRequest platform handoff with
  | .error message => do
    let _ ← fail platform handoff.handoffId .prepared "OCR_REQUEST_INVALID"
      (invalidOutputText message) false
    Process.fail (.invalidOutput message)
  | .ok _ => do
    let marked ← transition platform handoff.handoffId .prepared .submissionUncertain
    if marked then
      let handoff ← reload handoff.handoffId
      let submitted ← exchange platform provider
      cancellationCheckpoint platform rounds handoff
      settleSubmission platform handoff submitted
    else
      pure none

def pollUncertain (rounds : Nat) (handoff : OcrHandoff) (provider : LiveOcrProvider) :
    Consumer (Option String) := do
  let status ← exchange platform provider
  cancellationCheckpoint platform rounds handoff
  match status with
  | .ok status => do
    applyStatus platform handoff status
    pure none
  | .error .notFound => do
    let _ ← transition platform handoff.handoffId .submissionUncertain .prepared
    pure none
  | .error (.uncertain _) => pure none
  | .error error => Process.fail (mapTransport error)

def pollRunning (rounds : Nat) (handoff : OcrHandoff) (provider : LiveOcrProvider) :
    Consumer (Option String) := do
  let status ← exchange platform provider
  cancellationCheckpoint platform rounds handoff
  match status with
  | .ok status => do
    applyStatus platform handoff status
    pure none
  | .error (.uncertain _) => pure none
  | .error error => Process.fail (mapTransport error)

def continueRunning (rounds : Nat) (handoff : OcrHandoff) (provider : LiveOcrProvider) :
    Consumer (Option String) := do
  let completed ← checked (hasSavedCompletion platform handoff)
  if completed then
    retrieve platform rounds handoff provider
    pure none
  else
    pollRunning platform rounds handoff provider

/-- One turn of the loop; it answers the child, or that the handoff is to be read again. -/
def turn (rounds : Nat) (handoff : OcrHandoff) (provider : LiveOcrProvider) :
    Consumer (Option String) :=
  match handoff.phase with
  | .prepared => submitPrepared platform rounds handoff provider
  | .submissionUncertain => pollUncertain platform rounds handoff provider
  | .running => continueRunning platform rounds handoff provider
  | .outputReady => do
    materializeDerived platform handoff
    let child ← admitChild platform handoff
    pure (some child.runId)
  | .childAdmitted | .completed => do
    materializeDerived platform handoff
    pure (some handoff.childRunId)
  | .failed => Process.fail (.providerFailed (handoff.errorMessage.getD "OCR work failed"))

def checkDeadline : Consumer Unit :=
  ask fun a => if a.expired then .error .deadline else .ok ()

def runHandoffUntil (provider : LiveOcrProvider) : Nat → OcrHandoff → Consumer String
  | 0, _ => outOfRounds
  | rounds + 1, handoff => do
    cancellationCheckpoint platform rounds handoff
    checkDeadline
    let admitted ← turn platform rounds handoff provider
    match admitted with
    | some child => pure child
    | none => do
      let handoff ← reload handoff.handoffId
      runHandoffUntil provider rounds handoff

/-- Invalid output of the streamed protocol fails a handoff that still waits for it. -/
def failInvalid (handoffId message : String) : Consumer Unit := do
  let current ← reload handoffId
  if current.phase = .prepared ∨ current.phase = .submissionUncertain ∨
      current.phase = .running then
    let _ ← fail platform handoffId current.phase "OCR_OUTPUT_INVALID" message false
    pure ()
  else
    pure ()

def runHandoff (rounds : Nat) (handoff : OcrHandoff) (provider : LiveOcrProvider) :
    Consumer String := do
  let result ← Process.attempt (runHandoffUntil platform provider rounds handoff)
  match result with
  | .error (.invalidOutput message) =>
    if provider.protocolVersion = 3 then
      failInvalid platform handoff.handoffId message
      Process.fail (.invalidOutput message)
    else
      Process.fail (.invalidOutput message)
  | result => Process.lift result

/-! ## Starting a handoff -/

def admittedRequest (provider : LiveOcrProvider) (document : IngestedDocument)
    (source : List UInt8) (providerJobId sourceArtifactId : String) : JobRequest where
  protocolVersion := provider.protocolVersion
  jobId := providerJobId
  -- discovery lists providers of these protocols only
  capability := ⟨ocrCapabilityId, (capabilityVersion provider.protocolVersion).getD ""⟩
  inputs := [{
    artifactId := sourceArtifactId
    mediaType := pdfMediaType
    byteSize := source.length
    sha256 := document.contentHash
    displayName := document.originalFilename
    sourceAppId := appId }]
  parameters := []

/-- `newV4` makes, in order, the ids of the handoff, the source, the job and the child. -/
def newOcrHandoff (provider : LiveOcrProvider) (rootRunId : String) (document : IngestedDocument)
    (source : List UInt8) (newV4 : Nat → String) : NewOcrHandoff where
  handoffId := newV4 0
  rootRunId := rootRunId
  rootDocumentId := document.documentId
  sourceArtifactId := newV4 1
  sourceBytes := source
  sourceSha256 := document.contentHash
  sourceDisplayName := document.originalFilename
  providerAppId := provider.appId
  providerInstanceId := provider.instanceId
  providerJobId := newV4 2
  providerRequestJson := platform.serde.requestToString
    (admittedRequest provider document source (newV4 2) (newV4 1))
  childDocumentId := newV4 3
  childRunId := newV4 4
  derivedPath := platform.expectedDerivedPath (newV4 0)

def validateSource (document : IngestedDocument) (source : List UInt8) : Except String Unit := do
  refuseIf (source.isEmpty = true ∨ maxInputBytes < source.length ∨
      source.length ≠ document.byteSize ∨ platform.codec.sha256Hex source ≠ document.contentHash)
    "the admitted source no longer matches its durable identity"
  let pageCount ← pdfPageCount platform source
  refuseIf (pageCount < 1 ∨ 100 < pageCount) "the scanned PDF is outside the OCR page boundary"

/-- The row is read again after the transaction that inserted it. -/
def insertHandoff (admission : Answer → NewOcrHandoff) : Consumer OcrHandoff := do
  let (existed, handoff) ← update fun a s => do
    let (handoff, t) ← prepareOcrHandoff platform.codec (admission a) s
    return (((getOcrHandoffForRoot s (admission a).rootRunId).isSome, handoff), t)
  if existed then
    pure handoff
  else
    query fun _ s => okOrElse (getOcrHandoff s handoff.handoffId)
      (.store (.invalidOcrHandoff "the admitted handoff disappeared"))

def prepareHandoff (rootRunId : String) (provider : LiveOcrProvider) : Consumer OcrHandoff := do
  let root ← query fun _ s =>
    okOrElse (getPipelineRun s rootRunId) (.store (.runNotFound rootRunId))
  let document ← query fun _ s =>
    okOrElse (getDocument s root.documentId) (.store (.documentNotFound root.documentId))
  let source ← ask fun a => a.source.mapError .io
  checked (validateSource platform document source)
  insertHandoff platform fun a =>
    newOcrHandoff platform provider rootRunId document source a.ambient.newV4

def processScannedDocumentWith (rounds : Nat) (rootRunId : String) (provider : LiveOcrProvider) :
    Consumer String := do
  let existing ← query fun _ s => .ok (getOcrHandoffForRoot s rootRunId)
  let handoff ← match existing with
    | some existing => pure existing
    | none => prepareHandoff platform rootRunId provider
  if handoff.providerAppId ≠ provider.appId ∨ handoff.providerInstanceId ≠ provider.instanceId then
    Process.fail (.providerUnavailable handoff.providerInstanceId)
  else
    let protocol ← checked (savedProtocol platform handoff)
    if protocol ≠ provider.protocolVersion then
      Process.fail (.providerUnavailable handoff.providerInstanceId)
    else
      runHandoff platform rounds handoff provider

/-- The only live provider, at the newest of its protocols. -/
def chooseProvider (providers : List LiveOcrProvider) : Except OcrConsumerError LiveOcrProvider :=
  match providers with
  | [] => .error (.discovery "no conforming document.ocr provider is live")
  | first :: rest =>
    if rest.any (·.instanceId ≠ first.instanceId) then
      .error (.discovery "multiple document.ocr providers are live; selection is ambiguous")
    else
      .ok (rest.foldl (fun best p => if best.protocolVersion < p.protocolVersion then p else best)
        first)

def discoverSelectedProvider (instanceId : String) (protocol : Nat) : Consumer LiveOcrProvider :=
  ask fun a => do
    let providers ← a.providers
    okOrElse (providers.find? fun p => p.instanceId == instanceId && p.protocolVersion == protocol)
      (.providerUnavailable instanceId)

def processScannedDocument (rounds : Nat) (rootRunId : String) : Consumer String := do
  let existing ← query fun _ s => .ok (getOcrHandoffForRoot s rootRunId)
  match existing with
  | some handoff => do
    cancellationCheckpoint platform rounds handoff
    let protocol ← checked (savedProtocol platform handoff)
    let provider ← discoverSelectedProvider handoff.providerInstanceId protocol
    processScannedDocumentWith platform rounds rootRunId provider
  | none => do
    let requested ← rootCancellationRequested rootRunId
    if requested then
      Process.fail .cancelled
    else
      let provider ← ask fun a => a.providers.bind chooseProvider
      processScannedDocumentWith platform rounds rootRunId provider

/-! ## Restart recovery -/

structure RecoveryWarning where
  handoffId : String
  /-- Without an error, the root was not reserved for recovery. -/
  error : Option OcrConsumerError

structure OcrRecoveryReport where
  childRunIds : List String
  warnings : List RecoveryWarning

def recoverOne (rounds : Nat) (providers : List LiveOcrProvider) (handoff : OcrHandoff) :
    Consumer String := do
  cancellationCheckpoint platform rounds handoff
  if handoff.phase = .childAdmitted ∨ handoff.phase = .completed then
    materializeDerived platform handoff
    pure handoff.childRunId
  else
    match providers.find? fun p => p.appId == handoff.providerAppId &&
        p.instanceId == handoff.providerInstanceId &&
        (savedProtocol platform handoff).toOption == some p.protocolVersion with
    | some provider => runHandoff platform rounds handoff provider
    | none => Process.fail (.providerUnavailable handoff.providerInstanceId)

/-- A cancelled root is brought to its end. -/
def completeRootCancellation (rootRunId : String) : Consumer Unit := do
  let root ← query fun _ s =>
    okOrElse (getPipelineRun s rootRunId) (.store (.runNotFound rootRunId))
  if root.state = .cancelling then
    update fun a => (Operation.completeCancellation root.runId root.stateVersion).body
      platform.codec a.ambient
  else
    pure ()

/-- `reserved` are the roots with a control; a root without one is left alone unless its child
was admitted. -/
def recoverEach (rounds : Nat) (providers : List LiveOcrProvider) (reserved : List String) :
    List OcrHandoff → OcrRecoveryReport → Consumer OcrRecoveryReport
  | [], report => pure report
  | handoff :: rest, report =>
    if handoff.rootRunId ∉ reserved ∧ handoff.phase ≠ .childAdmitted ∧
        handoff.phase ≠ .completed then
      recoverEach rounds providers reserved rest
        { report with warnings := report.warnings ++ [⟨handoff.handoffId, none⟩] }
    else do
      let result ← Process.attempt (recoverOne platform rounds providers handoff)
      match result with
      | .ok childRunId =>
        recoverEach rounds providers reserved rest
          { report with childRunIds := report.childRunIds ++ [childRunId] }
      | .error .cancelled => do
        completeRootCancellation platform handoff.rootRunId
        recoverEach rounds providers reserved rest report
      | .error error =>
        recoverEach rounds providers reserved rest
          { report with warnings := report.warnings ++ [⟨handoff.handoffId, some error⟩] }

/-- In the order of the table, which is the order of creation. -/
def listRecoverableOcrHandoffs (s : Store) : List OcrHandoff :=
  s.ocrHandoffs.filter fun h => h.phase ≠ .completed ∧ h.phase ≠ .failed

def recoverOcrHandoffs (rounds : Nat) (reserved : List String) : Consumer OcrRecoveryReport := do
  let providers ← ask fun a => .ok (a.providers.toOption.getD [])
  let handoffs ← query fun _ s => .ok (listRecoverableOcrHandoffs s)
  let report ← recoverEach platform rounds providers reserved handoffs ⟨[], []⟩
  pure { report with childRunIds := (report.childRunIds.mergeSort (· ≤ ·)).dedup }

end Runner

/-! ## The processes -/

/-- The operations that other parts of the application issue. -/
def isOutside : Operation → Bool
  | .prepareOcrHandoff _ | .transitionOcrHandoff _ _ _ _ | .storeOcrOutputs _ _ _
  | .failOcrHandoff _ _ _ _ _ | .admitOcrChild _ _ _ => false
  | _ => true

inductive Request where
  | processScannedDocument (rounds : Nat) (rootRunId : String)
  | recoverOcrHandoffs (rounds : Nat) (reserved : List String)
  /-- Ingestion, cancellation, the stages of any run, recovery of interrupted runs. -/
  | perform (operation : Operation) (outside : isOutside operation = true)

inductive Served where
  | child (runId : String)
  | report (report : OcrRecoveryReport)
  | performed

def serve (platform : OcrPlatform) : Request → Consumer Served
  | .processScannedDocument rounds rootRunId => do
    let child ← processScannedDocument platform rounds rootRunId
    pure (.child child)
  | .recoverOcrHandoffs rounds reserved => do
    let report ← recoverOcrHandoffs platform rounds reserved
    pure (.report report)
  | .perform operation _ => do
    update fun a => operation.body platform.codec a.ambient
    pure .performed

def consumers (platform : OcrPlatform) :
    Processes HandoffWorld Answer OcrConsumerError Served Request Nat where
  program request _ := serve platform request
  release _ w := w

end DocumentSummarizer.Ocr
