import Mathlib.Logic.Function.Basic
import DocumentSummarizer.Library.Process
import DocumentSummarizer.Pipeline.GatewayWire

/-! # The gateway request ledger and its client

Each ledger operation is one transaction over the row of its key.  A call of the
client is a process whose steps are those transactions, its readings of the
clock and the token, and its two kinds of message.
-/

namespace DocumentSummarizer.Pipeline.Gateway

open Library

structure GatewayRequestKey where
  ownerId : String
  stage : PipelineStage
  ordinal : Nat
  deriving DecidableEq

/-- How far a request has come, with the columns that the state requires. -/
inductive Progress where
  | reserved
  | submitted (gatewayRequestHash : String)
  | completed (gatewayRequestHash : String) (completion : GatewayCompletion)
  | acknowledged (gatewayRequestHash : String) (completion : GatewayCompletion)
  deriving DecidableEq

structure GatewayRequestRecord where
  key : GatewayRequestKey
  requestId : String
  requestExpiresAt : String
  semanticRequestHash : String
  progress : Progress
  deriving DecidableEq

namespace Progress

def state : Progress → GatewayRequestState
  | .reserved => .reserved
  | .submitted _ => .submitted
  | .completed _ _ => .completed
  | .acknowledged _ _ => .acknowledged

def gatewayRequestHash : Progress → Option String
  | .reserved => none
  | .submitted hash => some hash
  | .completed hash _ => some hash
  | .acknowledged hash _ => some hash

def completion : Progress → Option GatewayCompletion
  | .reserved => none
  | .submitted _ => none
  | .completed _ completion => some completion
  | .acknowledged _ completion => some completion

end Progress

/-- A row is one `INSERT` and at most three `UPDATE`s old. -/
abbrev Row := Option GatewayRequestRecord

/-- An inference submission as it was posted.  `checkedAt` is the clock at the last check of the
expiry before it. -/
structure Post where
  key : GatewayRequestKey
  requestId : String
  body : String
  checkedAt : Instant
  deriving DecidableEq

structure Acknowledgement where
  key : GatewayRequestKey
  requestId : String
  deriving DecidableEq

/-- The table of the ledger and what was ever sent, latest first. -/
structure Exchange where
  ledger : GatewayRequestKey → Row
  posts : List Post
  acknowledgements : List Acknowledgement

/-- A store operation reports an error; its transaction may have been committed all the same. -/
structure Fault where
  error : GatewayStoreError
  applied : Bool

/-- What the environment answers a step. -/
structure Answer where
  fault : Option Fault
  now : Instant
  newV4 : String
  token : Except GatewayClientError String
  response : Except GatewayClientError RawResponse

abbrev Call := Process Exchange Answer GatewayClientError

/-! ## The store -/

section Store

variable (platform : GatewayPlatform)

def stageName : PipelineStage → Except GatewayStoreError String
  | .analyze => .ok "Analyze"
  | .synthesize => .ok "Synthesize"
  | .verify => .ok "Verify"
  | _ => .error (.invalidInput "stage does not perform model inference")

def validateDigest (value : String) : Except GatewayStoreError Unit :=
  if validDigest value then .ok () else .error (.invalidInput "digest is invalid")

/-- `parse_record`, on a row whose state has the columns it requires. -/
def parseRecord (row : GatewayRequestRecord) : Except GatewayStoreError GatewayRequestRecord := do
  if platform.isV4 row.requestId = false then
    .error (.invalidRecord "request UUID is not canonical lowercase v4")
  else if validDigest row.semanticRequestHash = false then
    .error (.invalidRecord "semantic digest is invalid")
  else if row.progress.gatewayRequestHash.any (!validDigest ·) then
    .error (.invalidRecord "gateway digest is invalid")
  else if (platform.parseRfc3339 row.requestExpiresAt).isNone then
    .error (.invalidRecord "expiry is invalid")
  else
    match row.progress.completion with
    | none => return row
    | some completion => do
      validateCompletion platform completion
      return row

/-- `load_required` -/
def loadRequired (row : Row) : Except GatewayStoreError GatewayRequestRecord :=
  match row with
  | none => .error .requestNotFound
  | some row => parseRecord platform row

def validateReservationIdentity (key : GatewayRequestKey) (semanticRequestHash : String) :
    Except GatewayStoreError String := do
  let stage ← stageName key.stage
  validateDigest semanticRequestHash
  if key.ownerId = "" then
    .error (.invalidInput "request owner identity is empty")
  else
    return stage

/-- The timing closure of `execute` and `validate_reservation_timing`. -/
def reservationTiming (lifetime now : Instant) : Except GatewayStoreError Instant :=
  match requestExpiry platform now lifetime with
  | .error _ => .error (.invalidInput "request expiry overflowed")
  | .ok expiresAt =>
    if expiresAt ≤ now ∨ expiresAt % nanosPerSecond ≠ 0 then
      .error (.invalidInput "expiry is not a future whole-second timestamp")
    else
      .ok expiresAt

/-- The transaction of `reserve_request_after_lock`. -/
def reserveRequest (key : GatewayRequestKey) (semanticRequestHash : String) (lifetime : Instant)
    (answer : Answer) (row : Row) : Except GatewayStoreError GatewayRequestRecord := do
  let expiresAt ← reservationTiming platform lifetime answer.now
  let inserted := row.getD
    { key := key
      requestId := answer.newV4
      requestExpiresAt := platform.timestampText expiresAt
      semanticRequestHash := semanticRequestHash
      progress := .reserved }
  let record ← parseRecord platform inserted
  if record.semanticRequestHash ≠ semanticRequestHash then
    .error .semanticIdentityConflict
  else
    return record

/-- The transaction of `mark_submitted`. -/
def markSubmitted (gatewayRequestHash : String) (now : Instant) (row : Row) :
    Except GatewayStoreError GatewayRequestRecord := do
  validateDigest gatewayRequestHash
  let record ← loadRequired platform row
  if record.progress.gatewayRequestHash.any (· != gatewayRequestHash) then
    .error .submissionIdentityConflict
  else
    match record.progress with
    | .reserved =>
      match platform.parseRfc3339 record.requestExpiresAt with
      | none => .error (.invalidRecord "expiry is invalid")
      | some expiresAt =>
        if expiresAt ≤ now then
          .error .requestExpired
        else
          parseRecord platform { record with progress := .submitted gatewayRequestHash }
    | _ => return record

/-- The transaction of `persist_completion`. -/
def persistCompletion (gatewayRequestHash : String) (completion : GatewayCompletion)
    (row : Row) : Except GatewayStoreError GatewayRequestRecord := do
  validateDigest gatewayRequestHash
  validateCompletion platform completion
  let record ← loadRequired platform row
  if record.progress.gatewayRequestHash ≠ some gatewayRequestHash then
    .error .submissionIdentityConflict
  else
    match record.progress with
    | .submitted hash =>
      parseRecord platform { record with progress := .completed hash completion }
    | .reserved => .error (.invalidTransition .reserved .completed)
    | .completed _ stored | .acknowledged _ stored =>
      if stored = completion then return record else .error .completionConflict

/-- The transaction of `mark_acknowledged`. -/
def markAcknowledged (row : Row) : Except GatewayStoreError GatewayRequestRecord := do
  let record ← loadRequired platform row
  match record.progress with
  | .completed hash completion =>
    parseRecord platform { record with progress := .acknowledged hash completion }
  | .acknowledged _ _ => return record
  | .reserved => .error (.invalidTransition .reserved .acknowledged)
  | .submitted _ => .error (.invalidTransition .submitted .acknowledged)

end Store

/-! ## The steps of a call -/

def Exchange.write (s : Exchange) (key : GatewayRequestKey) (record : GatewayRequestRecord) :
    Exchange :=
  { s with ledger := Function.update s.ledger key (some record) }

/-- One transaction.  Its result is the row it commits. -/
def transact (key : GatewayRequestKey)
    (run : Answer → Row → Except GatewayStoreError GatewayRequestRecord) :
    Call (Except GatewayStoreError GatewayRequestRecord) :=
  .atomic fun answer s =>
    match run answer (s.ledger key), answer.fault with
    | .ok record, none => (.ok (.ok record), s.write key record)
    | .ok record, some fault =>
      (.ok (.error fault.error), if fault.applied then s.write key record else s)
    | .error e, none => (.ok (.error e), s)
    | .error _, some fault => (.ok (.error fault.error), s)

/-- `load_request` with its two refusals -/
def loadRequest (platform : GatewayPlatform) (key : GatewayRequestKey) :
    Call GatewayRequestRecord :=
  .atomic fun answer s =>
    match answer.fault with
    | some fault => (.error (.store fault.error), s)
    | none =>
      match loadRequired platform (s.ledger key) with
      | .ok record => (.ok record, s)
      | .error e => (.error (.store e), s)

def clock : Call Instant :=
  .atomic fun answer s => (.ok answer.now, s)

def readToken : Call (Except GatewayClientError String) :=
  .atomic fun answer s => (.ok answer.token, s)

/-- The submission leaves; the answer to it comes in a later step. -/
def postInference (post : Post) : Call Unit :=
  .atomic fun _ s => (.ok (), { s with posts := post :: s.posts })

def postAcknowledgement (acknowledgement : Acknowledgement) : Call Unit :=
  .atomic fun _ s =>
    (.ok (), { s with acknowledgements := acknowledgement :: s.acknowledgements })

def receive : Call (Except GatewayClientError RawResponse) :=
  .atomic fun answer s => (.ok answer.response, s)

/-! ## The client -/

structure GatewayResult where
  content : String
  deploymentId : String
  taskPolicyVersion : Nat
  deriving DecidableEq, Repr

def GatewayCompletion.result (completion : GatewayCompletion) : GatewayResult where
  content := completion.content
  deploymentId := completion.deploymentId
  taskPolicyVersion := completion.taskPolicyVersion

def resultFromRecord (record : GatewayRequestRecord) : Except GatewayClientError GatewayResult :=
  match record.progress.completion with
  | some completion => .ok completion.result
  | none => .error (.protocol "local completion is missing")

section Client

variable (platform : GatewayPlatform) (key : GatewayRequestKey)

def requestExpired (record : GatewayRequestRecord) (now : Instant) :
    Except GatewayClientError Bool :=
  match platform.parseRfc3339 record.requestExpiresAt with
  | some expiresAt => .ok (decide (expiresAt ≤ now))
  | none => .error (.store (.invalidRecord "expiry is invalid"))

/-- What a call still finds after `error`: a result that is acknowledged or expired. -/
def settledOrError (error : GatewayClientError) : Call GatewayResult := do
  let current ← loadRequest platform key
  match current.progress.state with
  | .acknowledged => Process.lift (resultFromRecord current)
  | .completed => do
    if ← Process.lift (requestExpired platform current (← clock)) then
      Process.lift (resultFromRecord current)
    else
      Process.fail error
  | .reserved | .submitted => Process.fail error

inductive TokenOrTerminal where
  | token (token : String)
  | terminal (result : GatewayResult)

def readTokenOrTerminal : Call TokenOrTerminal := do
  match ← readToken with
  | .ok token => return .token token
  | .error error => return .terminal (← settledOrError platform key error)

/-- `acknowledge`, whose outcome the caller inspects -/
def acknowledge (requestId : String) : Call (Except GatewayClientError Unit) := do
  postAcknowledgement ⟨key, requestId⟩
  match ← receive with
  | .ok response => return checkAcknowledgement platform response requestId
  | .error error => return .error error

/-- `resolve_local_record` -/
def resolveLocalRecord (record : GatewayRequestRecord) (now : Instant) :
    Call (Option GatewayResult) :=
  match record.progress.state with
  | .acknowledged => do return some (← Process.lift (resultFromRecord record))
  | .completed => do
    let result ← Process.lift (resultFromRecord record)
    if ← Process.lift (requestExpired platform record (← clock)) then
      return some result
    else
      match ← readTokenOrTerminal platform key with
      | .terminal result => return some result
      | .token _ =>
        if ← Process.lift (requestExpired platform record (← clock)) then
          return some result
        else
          match ← acknowledge platform key record.requestId with
          | .ok () => do
            let _ ← transact key fun _ row => markAcknowledged platform row
            return some result
          | .error error => return some (← settledOrError platform key error)
  | .submitted => do
    if ← Process.lift (requestExpired platform record now) then
      Process.fail .expired
    else
      return none
  | .reserved => return none

/-- `reconcile_or_propagate` -/
def reconcileOrPropagate (error : GatewayClientError) : Call GatewayResult := do
  let current ← loadRequest platform key
  match ← resolveLocalRecord platform key current (← clock) with
  | some result => return result
  | none => Process.fail error

/-- `matching_terminal_after_store_error` -/
def matchingTerminal (semanticHash : String) (error : GatewayStoreError) :
    Call GatewayRequestRecord := do
  let current ← loadRequest platform key
  if current.semanticRequestHash ≠ semanticHash ∨
      (current.progress.state ≠ .completed ∧ current.progress.state ≠ .acknowledged) then
    Process.fail (.store error)
  else
    return current

/-- The row a transaction commits, or what another call has already settled. -/
def orMatchingTerminal (semanticHash : String)
    (outcome : Except GatewayStoreError GatewayRequestRecord) : Call GatewayRequestRecord :=
  match outcome with
  | .ok record => return record
  | .error error => matchingTerminal platform key semanticHash error

/-- The end of `execute_reserved`, from the answer to the submission on. -/
def finishSubmission (requestId requestHash : String) : Call GatewayResult := do
  match ← receive with
  | .error error => reconcileOrPropagate platform key error
  | .ok response =>
    match parseInferenceResponse platform response requestId with
    | .error error => reconcileOrPropagate platform key error
    | .ok completion => do
      let persisted ←
        match ← transact key fun _ row =>
            persistCompletion platform requestHash completion row with
        | .ok persisted => pure persisted
        | .error error => do
          let current ← loadRequest platform key
          if current.progress.completion ≠ some completion then
            Process.fail (.store error)
          else
            pure current
      match ← resolveLocalRecord platform key persisted (← clock) with
      | some result => return result
      | none => Process.fail (.protocol "persisted completion state is invalid")

/-- `execute_reserved`, from the submitted row on -/
def submit (requestId requestHash requestBody : String) : Call GatewayResult := do
  match ← readTokenOrTerminal platform key with
  | .terminal result => return result
  | .token _ => do
    let current ← loadRequest platform key
    let now ← clock
    match ← resolveLocalRecord platform key current now with
    | some result => return result
    | none =>
      if current.progress.state ≠ .submitted then
        Process.fail (.protocol "local request state is invalid before transport")
      else
        postInference ⟨key, requestId, requestBody, now⟩
        finishSubmission platform key requestId requestHash

def executeReserved (record : GatewayRequestRecord) (core : RequestCore) (now : Instant) :
    Call GatewayResult := do
  match ← resolveLocalRecord platform key record now with
  | some result => return result
  | none =>
    let requestBody := platform.encodeEnvelope record.requestId record.requestExpiresAt core
    if maxRequestBytes < requestBody.utf8ByteSize then
      Process.fail (.protocol "request exceeds byte limit")
    else
      let requestHash := platform.sha256Hex requestBody
      let submittedAt ← clock
      let submitted ← orMatchingTerminal platform key record.semanticRequestHash
        (← transact key fun _ row => markSubmitted platform requestHash submittedAt row)
      match ← resolveLocalRecord platform key submitted (← clock) with
      | some result => return result
      | none =>
        if submitted.progress.state ≠ .submitted then
          Process.fail (.protocol "local request state is invalid before submission")
        else
          submit platform key record.requestId requestHash requestBody

/-- What identifies the input of a request. -/
def semanticHash (core : RequestCore) : String :=
  platform.sha256Hex (platform.encodeCore core)

/-- `execute`, for a client with this request lifetime -/
def execute (lifetime : Instant) (request : ModelRequest) (now : Instant) :
    Call GatewayResult := do
  Process.lift (ensureProtocol (key.stage == request.stage && key.ordinal == request.ordinal)
    "request identity does not match ledger key")
  let core ← Process.lift (requestCore platform request)
  let semanticHash := semanticHash platform core
  Process.lift (preflightRequestSize platform core)
  let reserved ←
    match validateReservationIdentity key semanticHash with
    | .error error => pure (.error error)
    | .ok _ =>
      transact key fun answer row =>
        reserveRequest platform key semanticHash lifetime answer row
  let record ← orMatchingTerminal platform key semanticHash reserved
  executeReserved platform key record core now

end Client

/-! ## The system -/

/-- One call of `execute`. -/
structure Execution where
  key : GatewayRequestKey
  lifetime : Instant
  request : ModelRequest
  now : Instant

def calls (platform : GatewayPlatform) :
    Processes Exchange Answer GatewayClientError GatewayResult Execution Nat where
  program call _ := execute platform call.key call.lifetime call.request call.now
  release _ s := s

end DocumentSummarizer.Pipeline.Gateway
