import DocumentSummarizer.Pipeline.StoreHistory
import DocumentSummarizer.Ocr.Wire

/-! # The Connect job table

The table of the jobs this application has accepted as a provider, beside the pipeline's
tables in one database, with the statements on it and the part of a job's admission that
reads and writes it.
-/

namespace DocumentSummarizer.Connect

open Library Pipeline
open Ocr (InputArtifact ArtifactProvenance ProviderRef CapabilityRef JobState JobError JobResult
  JobStatus)

def protocolVersion : Nat := 1
def protocolVersionV2 : Nat := 2
def capabilityId : String := "document.summarize"
def capabilityVersion : String := "1.0"

/-! ## Messages -/

structure ConnectWarning where
  code : String
  message : String
  deriving DecidableEq

structure SummaryContent where
  summaryVersion : String
  text : String
  warnings : List ConnectWarning
  inputArtifact : ArtifactProvenance
  deriving DecidableEq

structure SummaryOutput where
  artifactId : String
  mediaType : String
  byteSize : Nat
  sha256 : String
  content : SummaryContent
  deriving DecidableEq

/-- A request that has passed `validate`, which refuses any other number of inputs. -/
structure JobRequest where
  protocolVersion : Nat
  jobId : String
  capability : CapabilityRef
  inputs : List InputArtifact
  one : inputs.length = 1

/-- `request.inputs[0]` -/
def JobRequest.input (request : JobRequest) : InputArtifact :=
  request.inputs.head (List.ne_nil_of_length_pos (by rw [request.one]; exact Nat.one_pos))

def jobError (code message : String) (retryable : Bool) : JobError :=
  ⟨code, message, retryable⟩

def ArtifactProvenance.fromInput (input : InputArtifact) : ArtifactProvenance :=
  ⟨input.artifactId, input.mediaType, input.byteSize, input.sha256⟩

/-! ## Rows -/

structure StoredConnectJob where
  jobId : String
  requestHash : String
  protocolVersion : Nat
  input : InputArtifact
  importPath : String
  pipelineRunId : String
  providerInstanceId : String
  state : JobState
  result : Option (JobResult SummaryOutput)
  error : Option JobError
  createdAt : DateTime
  updatedAt : DateTime
  deriving DecidableEq

namespace StoredConnectJob

/-- `status IN ('accepted', 'processing')` -/
def active (job : StoredConnectJob) : Bool :=
  match job.state with
  | .accepted | .processing => true
  | .completed | .failed => false

/-- The table's check on a row's status and payload. -/
def payloadMatches (job : StoredConnectJob) : Bool :=
  match job.state with
  | .accepted | .processing => job.result.isNone && job.error.isNone
  | .completed => job.result.isSome && job.error.isNone
  | .failed => job.result.isNone && job.error.isSome

end StoredConnectJob

inductive ConnectStoreError where
  | sqlite (violated : Constraint)
  | pipelineStore (error : StoreError)
  | sizeRange
  | staleJob (jobId : String)
  | invalidJob (reason : String)
  deriving DecidableEq

structure JobStore where
  pipeline : Store
  connectJobs : List StoredConnectJob

def JobStore.empty : JobStore := ⟨.empty, []⟩

/-! ## Statements -/

def insertConnectJob (s : JobStore) (job : StoredConnectJob) :
    Except ConnectStoreError JobStore := do
  refuseIf (job.input.byteSize = 0 ∨
      (job.protocolVersion ≠ protocolVersion ∧ job.protocolVersion ≠ protocolVersionV2) ∨
      job.payloadMatches = false) (.sqlite .check)
  refuseIf (∃ row ∈ s.connectJobs, row.jobId = job.jobId) (.sqlite .primaryKey)
  refuseIf (∃ row ∈ s.connectJobs, row.pipelineRunId = job.pipelineRunId) (.sqlite .unique)
  refuseIf (job.active = true ∧ ∃ row ∈ s.connectJobs, row.active = true) (.sqlite .unique)
  refuseIf (job.pipelineRunId ∉ s.pipeline.pipelineRuns) (.sqlite .foreignKey)
  return { s with connectJobs := s.connectJobs ++ [job] }

/-- `UPDATE connect_jobs SET … WHERE …`, with the number of rows it changed. -/
def updateConnectJobs (s : JobStore) (chosen : StoredConnectJob → Bool)
    (set : StoredConnectJob → StoredConnectJob) : Except ConnectStoreError (Nat × JobStore) := do
  let rows := s.connectJobs.map fun job => if chosen job then set job else job
  refuseIf (∃ job ∈ rows, job.payloadMatches = false) (.sqlite .check)
  refuseIf (1 < (rows.filter (·.active)).length) (.sqlite .unique)
  return (s.connectJobs.countP chosen, { s with connectJobs := rows })

def validateStatePayload (job : StoredConnectJob) : Except ConnectStoreError Unit :=
  refuseIf (job.payloadMatches = false)
    (.invalidJob ("job " ++ job.jobId ++ " state payload does not match status"))

def getJob (s : JobStore) (jobId : String) :
    Except ConnectStoreError (Option StoredConnectJob) :=
  match s.connectJobs.find? (·.jobId = jobId) with
  | none => .ok none
  | some job => do
    validateStatePayload job
    return some job

def hasActiveJob (s : JobStore) : Bool :=
  s.connectJobs.any (·.active)

/-- Groups the providers of the active protocol 2 jobs, and reads at most two of them. -/
def activeV2ProviderInstanceId (s : JobStore) : Except ConnectStoreError (Option String) :=
  let jobs := s.connectJobs.filter fun job => job.protocolVersion = protocolVersionV2 && job.active
  match (jobs.map (·.providerInstanceId)).dedup.mergeSort (· ≤ ·) with
  | [] => .ok none
  | [first] => .ok (some first)
  | _ => .error (.invalidJob "active Connect v2 jobs have inconsistent provider identities")

/-! ## Accepting a job -/

/-- What `accept_job_with_ingestion_guarded` is called with. -/
structure JobAdmission where
  request : JobRequest
  requestHash : String
  importPath : String
  providerInstanceId : String
  document : IngestedDocument
  run : PipelineRun
  summaryProfile : SummaryProfile
  profileSnapshot : Option ModelProfileSnapshot

def JobAdmission.row (admission : JobAdmission) (pipelineRunId : String) (now : DateTime) :
    StoredConnectJob where
  jobId := admission.request.jobId
  requestHash := admission.requestHash
  protocolVersion := admission.request.protocolVersion
  input := admission.request.input
  importPath := admission.importPath
  pipelineRunId := pipelineRunId
  providerInstanceId := admission.providerInstanceId
  state := .accepted
  result := none
  error := none
  createdAt := now
  updatedAt := now

/-- The transaction; without an answer it is dropped before it commits. -/
def acceptInTransaction (amb : Ambient) (now : DateTime) (admission : JobAdmission)
    (admissionCheck : Nat → Bool) (s : JobStore) :
    Except ConnectStoreError (Option (PipelineRun × JobStore)) := do
  refuseIf (9223372036854775807 < admission.request.input.byteSize) .sizeRange
  if admissionCheck 0 = false then
    return none
  let (ingested, pipeline) ← (persistIngestionInTransaction amb s.pipeline admission.document
    admission.run admission.summaryProfile).mapError .pipelineStore
  let pipeline ← (ensureRunModelProfile pipeline ingested.runId
    admission.profileSnapshot).mapError .pipelineStore
  let t ← insertConnectJob { s with pipeline } (admission.row ingested.runId now)
  if admissionCheck 1 = false then
    return none
  return some (ingested, t)

/-- Reads a job back after a write that has already been committed. -/
def readBack (s : JobStore) (jobId reason : String) :
    Except ConnectStoreError StoredConnectJob := do
  let found ← getJob s jobId
  okOrElse found (.invalidJob reason)

def acceptJobWithIngestionGuarded (amb : Ambient) (now : DateTime) (admission : JobAdmission)
    (admissionCheck : Nat → Bool) (s : JobStore) :
    Except ConnectStoreError (Option (PipelineRun × StoredConnectJob)) × JobStore :=
  match acceptInTransaction amb now admission admissionCheck s with
  | .error e => (.error e, s)
  | .ok none => (.ok none, s)
  | .ok (some (ingested, t)) =>
    (do
      let stored ← readBack t admission.request.jobId "accepted job was not readable after commit"
      return some (ingested, stored), t)

/-! ## Moving a job on -/

/-- An update of its own transaction: what it changed stays when the job cannot be read back. -/
def updateJob (s : JobStore) (jobId : String) (chosen : StoredConnectJob → Bool)
    (set : StoredConnectJob → StoredConnectJob) :
    Except ConnectStoreError StoredConnectJob × JobStore :=
  match updateConnectJobs s chosen set with
  | .error e => (.error e, s)
  | .ok (changed, t) =>
    (do
      refuseIf (changed ≠ 1) (.staleJob jobId)
      readBack t jobId jobId, t)

def updateState (now : DateTime) (jobId : String) (expected next : JobState)
    (result : Option (JobResult SummaryOutput)) (error : Option JobError) (s : JobStore) :
    Except ConnectStoreError StoredConnectJob × JobStore :=
  updateJob s jobId (fun job => job.jobId = jobId && job.state = expected)
    fun job => { job with state := next, result := result, error := error, updatedAt := now }

def markProcessing (now : DateTime) (jobId : String) (s : JobStore) :=
  updateState now jobId .accepted .processing none none s

def markCompleted (now : DateTime) (jobId : String) (result : JobResult SummaryOutput)
    (s : JobStore) :=
  updateState now jobId .processing .completed (some result) none s

/-- `SET status = 'failed', result_json = NULL, error_json = ?1, updated_at = ?2` -/
def StoredConnectJob.fail (now : DateTime) (error : JobError) (job : StoredConnectJob) :
    StoredConnectJob :=
  { job with state := .failed, result := none, error := some error, updatedAt := now }

def markFailed (now : DateTime) (jobId : String) (error : JobError) (s : JobStore) :
    Except ConnectStoreError StoredConnectJob × JobStore :=
  updateJob s jobId (fun job => job.jobId = jobId && job.active) (.fail now error)

def markInterruptedJobsFailed (now : DateTime) (error : JobError) (s : JobStore) :
    Except ConnectStoreError Nat × JobStore :=
  match updateConnectJobs s (·.active) (.fail now error) with
  | .error e => (.error e, s)
  | .ok (changed, t) => (.ok changed, t)

/-! ## The database under all its callers -/

/-- One transaction on the database: a job's, or one of the pipeline's. -/
inductive JobCall where
  | accept (amb : Ambient) (now : DateTime) (admission : JobAdmission)
      (admissionCheck : Nat → Bool)
  | markProcessing (now : DateTime) (jobId : String)
  | markCompleted (now : DateTime) (jobId : String) (result : JobResult SummaryOutput)
  | markFailed (now : DateTime) (jobId : String) (error : JobError)
  | markInterruptedJobsFailed (now : DateTime) (error : JobError)
  | pipeline (call : Call)

def JobCall.after (codec : Codec) (call : JobCall) (s : JobStore) : JobStore :=
  match call with
  | .accept amb now admission admissionCheck =>
    (acceptJobWithIngestionGuarded amb now admission admissionCheck s).2
  | .markProcessing now jobId => (Connect.markProcessing now jobId s).2
  | .markCompleted now jobId result => (Connect.markCompleted now jobId result s).2
  | .markFailed now jobId error => (Connect.markFailed now jobId error s).2
  | .markInterruptedJobsFailed now error => (Connect.markInterruptedJobsFailed now error s).2
  | .pipeline call => { s with pipeline := call.after codec s.pipeline }

def jobMachine (codec : Codec) : Machine JobStore JobCall where
  init s := s = JobStore.empty
  step s call t := t = call.after codec s

/-! ## Answering a request -/

inductive WireVersion where
  | v1
  | v2
  deriving DecidableEq

def WireVersion.protocolVersion : WireVersion → Nat
  | .v1 => Connect.protocolVersion
  | .v2 => protocolVersionV2

structure ProviderHttpError where
  status : Nat
  error : JobError
  protocolVersion : Nat
  deriving DecidableEq

namespace ProviderHttpError

def new (status : Nat) (code message : String) (retryable : Bool) : ProviderHttpError :=
  ⟨status, jobError code message retryable, Connect.protocolVersion⟩

/-- The calls are atomic, so the answer while the store is busy is left out. -/
def store : ProviderHttpError :=
  new 500 "PROVIDER_INTERNAL_ERROR" "The provider could not access its job store." true

end ProviderHttpError

def requestTimeoutError : ProviderHttpError :=
  .new 408 "REQUEST_TIMEOUT"
    "The provider request could not be admitted within the allowed time." true

def entitlementRequiredError : ProviderHttpError :=
  .new 403 "CONNECT_ENTITLEMENT_REQUIRED" "An active Connect entitlement is required." false

def jobIdConflict : ProviderHttpError :=
  .new 409 "JOB_ID_CONFLICT" "The job identifier was already used for different input." false

def providerBusy (message : String) : ProviderHttpError :=
  .new 409 "PROVIDER_BUSY" message true

def workerUnavailable : ProviderHttpError :=
  .new 503 "PROVIDER_WORKER_UNAVAILABLE" "The provider worker could not start." true

/-- What `job_response` encodes: the job under either version of the protocol. -/
structure JobResponse where
  status : Nat
  job : StoredConnectJob

def existingRequestMatches (existing : StoredConnectJob) (requestHash : String)
    (version : WireVersion) : Bool :=
  existing.protocolVersion = version.protocolVersion && existing.requestHash = requestHash

def idempotentResponse (existing : StoredConnectJob) (requestHash : String)
    (version : WireVersion) : Except ProviderHttpError JobResponse :=
  if existingRequestMatches existing requestHash version then
    .ok ⟨200, existing⟩
  else
    .error jobIdConflict

def JobStore.afterCalls (codec : Codec) (s : JobStore) (calls : List JobCall) : JobStore :=
  calls.foldl (fun s call => call.after codec s) s

/-- What an admission meets: the calls that other connections commit before each of its own
reads and writes (an acceptance and the read of the row that it wrote are one), whether it is
still live and entitled at each check, and whether its worker starts. -/
structure Surroundings where
  others : Nat → List JobCall
  live : Nat → Bool
  entitled : Nat → Bool
  spawns : Bool

/-- The end of a failed admission: another request may have been accepted in the meantime. -/
def afterAdmissionRace (codec : Codec) (around : Surroundings) (version : WireVersion)
    (admission : JobAdmission) (s : JobStore) : Except ProviderHttpError JobResponse × JobStore :=
  let s := s.afterCalls codec (around.others 3)
  match getJob s admission.request.jobId with
  | .error _ => (.error .store, s)
  | .ok (some existing) => (idempotentResponse existing admission.requestHash version, s)
  | .ok none =>
    let s := s.afterCalls codec (around.others 4)
    if hasActiveJob s then
      (.error (providerBusy "The provider accepted another job first."), s)
    else
      (.error .store, s)

/-- An accepted job whose worker cannot start fails at once. -/
def startWorker (codec : Codec) (around : Surroundings) (now : DateTime)
    (accepted : StoredConnectJob) (s : JobStore) :
    Except ProviderHttpError JobResponse × JobStore :=
  if around.spawns then
    (.ok ⟨202, accepted⟩, s)
  else
    let s := s.afterCalls codec (around.others 5)
    (.error workerUnavailable, (markFailed now accepted.jobId (jobError
      "PROVIDER_WORKER_UNAVAILABLE" "The provider could not start the job worker." true) s).2)

/-- `admit_received_job` from where the import has been promoted and the writer opened. -/
def admitReceivedJob (codec : Codec) (amb : Ambient) (now : Nat → DateTime)
    (around : Surroundings) (version : WireVersion) (admission : JobAdmission) (s : JobStore) :
    Except ProviderHttpError JobResponse × JobStore :=
  let s := s.afterCalls codec (around.others 0)
  match getJob s admission.request.jobId with
  | .error _ => (.error .store, s)
  | .ok (some existing) => (idempotentResponse existing admission.requestHash version, s)
  | .ok none =>
    let s := s.afterCalls codec (around.others 1)
    if hasActiveJob s then
      (.error (providerBusy "The provider is processing another job."), s)
    else
      let s := s.afterCalls codec (around.others 2)
      match acceptJobWithIngestionGuarded amb (now 0) admission
          (fun check => around.live check && around.entitled check) s with
      | (.ok (some (_, accepted)), s) => startWorker codec around (now 1) accepted s
      | (.ok none, s) =>
        (.error (if around.live 2 then entitlementRequiredError else requestTimeoutError), s)
      | (.error _, s) => afterAdmissionRace codec around version admission s

end DocumentSummarizer.Connect
