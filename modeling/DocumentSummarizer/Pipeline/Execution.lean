import DocumentSummarizer.Pipeline.OcrHandoff
import DocumentSummarizer.Library.TransitionSystem

/-! # Runs of the store

Every operation of the store as one label of a transition system.  A step runs
the operation's body in a transaction, with whatever clock and identifiers the
environment supplies.
-/

namespace DocumentSummarizer.Pipeline

open Library

/-! ## Recovery -/

def interruptionFailureCode : String := "PROCESS_INTERRUPTED"

def stageLabel : PipelineStage → String
  | .ingest => "ingestion"
  | .parse => "parsing"
  | .normalize => "normalization"
  | .structure => "structural interpretation"
  | .chunk => "chunking"
  | .analyze => "analysis"
  | .synthesize => "synthesis"
  | .verify => "verification"

def interruptionFailure (stage : PipelineStage) : PipelineFailure where
  code := interruptionFailureCode
  message := "The application stopped while " ++ stageLabel stage ++
    " was in progress. Create a separate retry attempt to continue."
  stage := some stage
  recoverable := true

def listPipelineRunsForRecovery (s : Store) : List PipelineRun :=
  ((s.pipelineRuns.entries.map fun row => { row.2 with runId := row.1 }).filter fun run =>
    run.state.activeStage.isSome || run.state = .cancelling).mergeSort (·.runId ≤ ·.runId)

def interruptedCandidate (s : Store) (run : PipelineRun) : Option InterruptedRunTransition :=
  if run.state = .cancelling then
    some ⟨run.runId, run.state, run.stateVersion, .completeCancellation⟩
  else match run.state.activeStage with
    | none => none
    | some stage =>
      if isAdmittedOcrChild s run.runId then
        none
      else
        some ⟨run.runId, run.state, run.stateVersion, .fail (interruptionFailure stage)⟩

def reconcileInterruptedRuns (amb : Ambient) (s : Store) :
    Except StoreError (List PipelineRun × Store) :=
  reconcileInterruptedRunsInTransaction amb 0
    ((listPipelineRunsForRecovery s).filterMap (interruptedCandidate s)) s

/-! ## Model request owners -/

def validateRequestOwnerKey (sourceContentHash taskContractVersion : String) :
    Except StoreError Unit := do
  refuseIf (isSha256Hex sourceContentHash = false)
    (.invalidRequestOwner "source content hash must be a lowercase SHA-256 digest")
  refuseIf (taskContractVersion.isEmpty ∨ 128 < taskContractVersion.utf8ByteSize ∨
      taskContractVersion.toList.any (fun c =>
        !(c.isAlphanum || c == '.' || c == '-' || c == '_' || c == '@')) = true)
    (.invalidRequestOwner "task contract version is invalid")

def getOrCreateProfileSuggestionOwner (amb : Ambient)
    (sourceContentHash taskContractVersion : String) (s : Store) :
    Except StoreError (String × Store) := do
  validateRequestOwnerKey sourceContentHash taskContractVersion
  match s.profileSuggestionRequests.lookup (sourceContentHash, taskContractVersion) with
  | some ownerId =>
    refuseIf (s.modelRequestOwners.lookup ownerId ≠ some .profileSuggestion)
      (.invalidRequestOwner "persisted profile suggestion owner kind is invalid")
    return (ownerId, s)
  | none =>
    let ownerId := amb.newV4 0
    refuseIf (ownerId ∈ s.modelRequestOwners) (.sqlite "model_request_owners" .primaryKey)
    return (ownerId, { s with
      modelRequestOwners := s.modelRequestOwners.insert ownerId .profileSuggestion
      profileSuggestionRequests :=
        s.profileSuggestionRequests.insert (sourceContentHash, taskContractVersion) ownerId })

/-! ## Operations -/

inductive Operation where
  | persistIngestion (document : IngestedDocument) (run : PipelineRun)
      (profileSnapshot : Option ModelProfileSnapshot) (summaryProfile : SummaryProfile)
  | persistCorrectedDocument (document : IngestedDocument) (run : PipelineRun)
      (parsed : ParsedDocument) (sourceRunId : String)
  | createRetryRun (sourceRunId : String) (expectedSourceVersion : Nat) (retryRun : PipelineRun)
  | ensureRunModelProfile (runId : String) (snapshot : Option ModelProfileSnapshot)
  | ensureRunSummaryProfile (runId : String) (profile : SummaryProfile)
  | startParsing (runId : String) (expectedVersion : Nat)
  | completeParsing (runId : String) (expectedVersion : Nat) (parsed : ParsedDocument)
      (warnings : List PipelineWarning)
  | failParsing (runId : String) (expectedVersion : Nat) (failure : PipelineFailure)
  | startNormalizing (runId : String) (expectedVersion : Nat)
  | completeNormalization (runId : String) (expectedVersion : Nat)
      (normalized : NormalizedDocument) (warnings : List PipelineWarning)
  | failNormalization (runId : String) (expectedVersion : Nat) (failure : PipelineFailure)
  | startStructuring (runId : String) (expectedVersion : Nat)
  | completeStructuring (runId : String) (expectedVersion : Nat)
      (structured : StructuredDocument) (warnings : List PipelineWarning)
  | failStructuring (runId : String) (expectedVersion : Nat) (failure : PipelineFailure)
  | startChunking (runId : String) (expectedVersion : Nat)
  | completeChunking (runId : String) (expectedVersion : Nat) (chunked : ChunkedDocument)
      (warnings : List PipelineWarning)
  | failChunking (runId : String) (expectedVersion : Nat) (failure : PipelineFailure)
  | startAnalysis (runId : String) (expectedVersion : Nat)
  | completeAnalysis (runId : String) (expectedVersion : Nat) (analyzed : AnalyzedDocument)
      (warnings : List PipelineWarning)
  | failAnalysis (runId : String) (expectedVersion : Nat) (failure : PipelineFailure)
  | startSynthesis (runId : String) (expectedVersion : Nat)
  | completeSynthesis (runId : String) (expectedVersion : Nat)
      (synthesized : SynthesizedDocument) (warnings : List PipelineWarning)
  | failSynthesis (runId : String) (expectedVersion : Nat) (failure : PipelineFailure)
  | startVerification (runId : String) (expectedVersion : Nat)
  | recordVerificationAttempt (runId : String) (expectedVersion attemptOrdinal : Nat)
      (verified : VerifiedDocument)
  | completeVerification (runId : String) (expectedVersion attemptOrdinal : Nat)
      (verified : VerifiedDocument) (warnings : List PipelineWarning)
  | failVerification (runId : String) (expectedVersion : Nat) (failure : PipelineFailure)
  | completeSummary (runId : String) (expectedVersion : Nat) (summary : SummaryArtifact)
      (citations : CitationArtifact)
  | failSummary (runId : String) (expectedVersion : Nat) (failure : PipelineFailure)
  | requestCancellation (runId : String) (expectedVersion : Nat)
  | completeCancellation (runId : String) (expectedVersion : Nat)
  | failBackgroundExecution (runId : String) (expectedState : PipelineState)
      (expectedVersion : Nat) (failure : PipelineFailure)
  | reconcileInterruptedRunsInTransaction (interrupted : List InterruptedRunTransition)
  | reconcileInterruptedRuns
  | prepareOcrHandoff (admission : NewOcrHandoff)
  | transitionOcrHandoff (handoffId : String) (expectedPhase nextPhase : OcrPhase)
      (providerStatusJson : Option String)
  | storeOcrOutputs (handoffId : String) (expectedPhase : OcrPhase) (output : OcrOutput)
  | failOcrHandoff (handoffId : String) (expectedPhase : OcrPhase) (code message : String)
      (retryable : Bool)
  | admitOcrChild (handoff : OcrHandoff) (document : IngestedDocument) (run : PipelineRun)
  | markOcrHandoffCompletedForChild (childRunId : String)
  | rewindInterruptedOcrChild (childRunId : String)
  | getOrCreateProfileSuggestionOwner (sourceContentHash taskContractVersion : String)

/-- Forgets what a body returns besides the store. -/
def discardResult {α : Type} (body : Store → Except StoreError (α × Store)) (s : Store) :
    Except StoreError (Unit × Store) :=
  (body s).map fun result => ((), result.2)

def Operation.body (codec : Codec) (amb : Ambient) :
    Operation → Store → Except StoreError (Unit × Store)
  | .persistIngestion document run profileSnapshot summaryProfile =>
    discardResult (Pipeline.persistIngestionWithProfiles amb document run profileSnapshot
      summaryProfile)
  | .persistCorrectedDocument document run parsed sourceRunId =>
    discardResult (Pipeline.persistCorrectedDocument codec amb document run parsed sourceRunId)
  | .createRetryRun sourceRunId expectedSourceVersion retryRun =>
    discardResult (Pipeline.createRetryRun amb sourceRunId expectedSourceVersion retryRun)
  | .ensureRunModelProfile runId snapshot => fun s =>
    (Pipeline.ensureRunModelProfile s runId snapshot).map ((), ·)
  | .ensureRunSummaryProfile runId profile => fun s =>
    (Pipeline.ensureRunSummaryProfile s runId profile).map ((), ·)
  | .startParsing runId v => discardResult (Pipeline.startParsing amb runId v)
  | .completeParsing runId v parsed warnings =>
    discardResult (Pipeline.completeParsing codec amb runId v parsed warnings)
  | .failParsing runId v failure => discardResult (Pipeline.failParsing amb runId v failure)
  | .startNormalizing runId v => discardResult (Pipeline.startNormalizing amb runId v)
  | .completeNormalization runId v normalized warnings =>
    discardResult (Pipeline.completeNormalization codec amb runId v normalized warnings)
  | .failNormalization runId v failure =>
    discardResult (Pipeline.failNormalization amb runId v failure)
  | .startStructuring runId v => discardResult (Pipeline.startStructuring codec amb runId v)
  | .completeStructuring runId v structured warnings =>
    discardResult (Pipeline.completeStructuring codec amb runId v structured warnings)
  | .failStructuring runId v failure =>
    discardResult (Pipeline.failStructuring amb runId v failure)
  | .startChunking runId v => discardResult (Pipeline.startChunking codec amb runId v)
  | .completeChunking runId v chunked warnings =>
    discardResult (Pipeline.completeChunking codec amb runId v chunked warnings)
  | .failChunking runId v failure => discardResult (Pipeline.failChunking amb runId v failure)
  | .startAnalysis runId v => discardResult (Pipeline.startAnalysis codec amb runId v)
  | .completeAnalysis runId v analyzed warnings =>
    discardResult (Pipeline.completeAnalysis codec amb runId v analyzed warnings)
  | .failAnalysis runId v failure => discardResult (Pipeline.failAnalysis amb runId v failure)
  | .startSynthesis runId v => discardResult (Pipeline.startSynthesis codec amb runId v)
  | .completeSynthesis runId v synthesized warnings =>
    discardResult (Pipeline.completeSynthesis codec amb runId v synthesized warnings)
  | .failSynthesis runId v failure => discardResult (Pipeline.failSynthesis amb runId v failure)
  | .startVerification runId v => discardResult (Pipeline.startVerification codec amb runId v)
  | .recordVerificationAttempt runId v ordinal verified =>
    Pipeline.recordVerificationAttempt codec runId v ordinal verified
  | .completeVerification runId v ordinal verified warnings =>
    discardResult (Pipeline.completeVerification codec amb runId v ordinal verified warnings)
  | .failVerification runId v failure =>
    discardResult (Pipeline.failVerification amb runId v failure)
  | .completeSummary runId v summary citations =>
    discardResult (Pipeline.completeSummary codec amb runId v summary citations)
  | .failSummary runId v failure => discardResult (Pipeline.failSummary amb runId v failure)
  | .requestCancellation runId v => discardResult (Pipeline.requestCancellation amb runId v)
  | .completeCancellation runId v => discardResult (Pipeline.completeCancellation amb runId v)
  | .failBackgroundExecution runId state v failure =>
    discardResult (Pipeline.failBackgroundExecution amb runId state v failure)
  | .reconcileInterruptedRunsInTransaction interrupted =>
    discardResult (Pipeline.reconcileInterruptedRunsInTransaction amb 0 interrupted)
  | .reconcileInterruptedRuns => discardResult (Pipeline.reconcileInterruptedRuns amb)
  | .prepareOcrHandoff admission => discardResult (Pipeline.prepareOcrHandoff codec admission)
  | .transitionOcrHandoff handoffId expectedPhase nextPhase providerStatusJson =>
    discardResult (Pipeline.transitionOcrHandoff codec handoffId expectedPhase nextPhase
      providerStatusJson)
  | .storeOcrOutputs handoffId expectedPhase output =>
    discardResult (Pipeline.storeOcrOutputs codec handoffId expectedPhase output)
  | .failOcrHandoff handoffId expectedPhase code message retryable =>
    discardResult (Pipeline.failOcrHandoff codec handoffId expectedPhase code message retryable)
  | .admitOcrChild handoff document run =>
    discardResult (Pipeline.admitOcrChild codec amb handoff document run)
  | .markOcrHandoffCompletedForChild childRunId =>
    discardResult (Pipeline.markOcrHandoffCompletedForChild codec childRunId)
  | .rewindInterruptedOcrChild childRunId =>
    discardResult (Pipeline.rewindInterruptedOcrChild amb childRunId)
  | .getOrCreateProfileSuggestionOwner sourceContentHash taskContractVersion =>
    discardResult (Pipeline.getOrCreateProfileSuggestionOwner amb sourceContentHash
      taskContractVersion)

/-- One caller's call: an operation with the readings its transaction will take. -/
structure Call where
  ambient : Ambient
  operation : Operation

def Call.execute (codec : Codec) (call : Call) (s : Store) : Except StoreError Unit × Store :=
  transaction (call.operation.body codec call.ambient) s

def Call.result (codec : Codec) (call : Call) (s : Store) : Except StoreError Unit :=
  (call.execute codec s).1

def Call.after (codec : Codec) (call : Call) (s : Store) : Store :=
  (call.execute codec s).2

/-- The store under any calls of any callers: each is one serialised transaction. -/
def storeMachine (codec : Codec) : Machine Store Call where
  init s := s = Store.empty
  step s call t := t = call.after codec s

abbrev Reachable (codec : Codec) (s : Store) : Prop :=
  (storeMachine codec).Reachable s

theorem after_of_ok {codec : Codec} {call : Call} {s : Store}
    (h : call.result codec s = .ok ()) :
    call.operation.body codec call.ambient s = .ok ((), call.after codec s) :=
  transaction_eq_ok h

theorem after_of_error {codec : Codec} {call : Call} {s : Store} {e : StoreError}
    (h : call.result codec s = .error e) : call.after codec s = s :=
  transaction_rolls_back h

theorem discardResult_ok {α : Type} {body : Store → Except StoreError (α × Store)} {s t : Store} :
    discardResult body s = .ok ((), t) ↔ ∃ a, body s = .ok (a, t) := by
  unfold discardResult
  cases body s with
  | error e => simp [Except.map]
  | ok result =>
      obtain ⟨a, u⟩ := result
      simp [Except.map]

theorem discardResult_succeeds {α : Type} {body : Store → Except StoreError (α × Store)}
    {s : Store} (h : ∃ a t, body s = .ok (a, t)) : ∃ t, discardResult body s = .ok ((), t) := by
  obtain ⟨a, t, done⟩ := h
  exact ⟨t, discardResult_ok.mpr ⟨a, done⟩⟩

def Store.afterCalls (codec : Codec) (s : Store) (calls : List Call) : Store :=
  calls.foldl (fun s call => call.after codec s) s

theorem run_afterCalls (codec : Codec) (s : Store) (calls : List Call) :
    (storeMachine codec).Run s calls (s.afterCalls codec calls) :=
  .foldl (fun _ _ => rfl) s calls

theorem reachable_afterCalls (codec : Codec) (calls : List Call) :
    Reachable codec (Store.empty.afterCalls codec calls) :=
  ⟨Store.empty, calls, rfl, run_afterCalls codec _ calls⟩

/-! ## A sample environment -/

/-- SHA-256 of the bytes the sample calls hash. -/
def sampleSha256Hex : List UInt8 → String
  | [115, 99, 97, 110] => "59ad1b2fc74287ded1bba7af67765d23ad4a49f1ae51902cc2ed3f8ebee96cfa"
  | [110, 117, 108, 108] => "74234e98afe7498fb5daf1f36ac2d78acc339464f950703b8c019892f982b90b"
  | [37, 80, 68, 70] => "315d429b7714cedb6ad04ac31240145257692630457f3c88253c5beceac76027"
  | [116, 101, 120, 116] => "982d9e3eb996f559e633f4d194def3761d909f5a3b647d1a851fead67c32c9d1"
  | _ => ""

def sampleCodec : Codec where
  artifactHash kind _ := kind.label
  canonicalHash _ := "canonical"
  sha256Hex := sampleSha256Hex
  ocrPdfByteLimit _ := 2097152

/-- The readings of the `n`-th transaction; no two transactions share an identifier. -/
def sampleAmbient (n : Nat) : Ambient where
  now k := 8 * n + k
  newV4 k := String.ofList (List.replicate (8 * n + k) 'e')

/-- The operations, each in a transaction of its own. -/
def sampleCalls (operations : List Operation) : List Call :=
  operations.zipIdx.map fun operation => ⟨sampleAmbient (operation.2 + 1), operation.1⟩

def sampleDocument : IngestedDocument where
  documentId := "document"
  originalFilename := "scan.pdf"
  fileType := "pdf"
  sourceType := .nativeText
  byteSize := 4
  contentHash := sampleSha256Hex [115, 99, 97, 110]
  localSourcePath := "/originals/document.pdf"
  createdAt := 0

def sampleModelProfile : ModelProfileSnapshot :=
  let stage : ModelStageProfileSnapshot := ⟨.ollamaNative, "profile", "model", "digest", 4096, "1"⟩
  ⟨1, "preset", stage, stage⟩

def sampleIngestion : Operation :=
  .persistIngestion sampleDocument (prepareReceivedRun "root" "document" 0)
    (some sampleModelProfile) .general

def ingestedStore : Store := Store.empty.afterCalls sampleCodec (sampleCalls [sampleIngestion])

end DocumentSummarizer.Pipeline
