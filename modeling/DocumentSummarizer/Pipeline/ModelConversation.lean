import DocumentSummarizer.Library.FailingSteps
import DocumentSummarizer.Pipeline.GatewayWire
import DocumentSummarizer.Pipeline.RequestIds

/-! # Conversations with the model

A stage sends its requests one after the other, and looks before and after each of them
whether its run has been cancelled.
-/

namespace DocumentSummarizer.Pipeline

open Library Gateway

structure ModelResponse where
  text : String
  runtimeId : String
  modelId : String
  deriving DecidableEq, Repr

structure ModelRuntimeFailure where
  code : String
  message : String
  recoverable : Bool
  deriving DecidableEq, Repr

/-- The runtime of a run and the switch that cancels the run: what the runtime answers may
depend on how many requests it has had, and the switch on how often it was looked at. -/
structure ModelRuntime where
  runtimeId : PipelineStage → String
  modelId : PipelineStage → String
  contextTokens : PipelineStage → Nat
  preflightRequest : ModelRequest → Except ModelRuntimeFailure Unit
  generate : Nat → ModelRequest → Except ModelRuntimeFailure ModelResponse
  cancellationRequested : Nat → Bool

/-- The ordinal of the next request, how many requests the selection under way has made, how
often the switch was looked at, and the requests that were sent. -/
structure Conversation where
  nextRequestOrdinal : Nat
  requestCount : Nat
  checkpoints : Nat
  requests : List ModelRequest

abbrev Converse := EStateM PipelineFailure Conversation

def cancellationObservedCode : String := "PIPELINE_CANCELLATION_OBSERVED"

def cancellationObserved (failure : PipelineFailure) : Bool :=
  failure.code == cancellationObservedCode

def cancellationFailure (stage : PipelineStage) : PipelineFailure :=
  stageFailure stage cancellationObservedCode
    "Pipeline cancellation was observed at a safe work boundary" true

def checkCancellation (runtime : ModelRuntime) (stage : PipelineStage) : Converse Unit := do
  let s ← get
  set { s with checkpoints := s.checkpoints + 1 }
  if runtime.cancellationRequested s.checkpoints then throw (cancellationFailure stage)

/-- The ordinals are `u32`. -/
def reserveModelRequestOrdinal (stage : PipelineStage) : Converse Nat := do
  let s ← get
  if s.nextRequestOrdinal + 1 < 2 ^ 32 then
    set { s with nextRequestOrdinal := s.nextRequestOrdinal + 1 }
    return s.nextRequestOrdinal
  else
    throw (stageFailure stage "MODEL_REQUEST_INVALID"
      "The model request ordinal exceeded the supported range" false)

/-- A request is counted, and the runtime answers it. -/
def exchange (runtime : ModelRuntime) (request : ModelRequest) :
    Converse (Except ModelRuntimeFailure ModelResponse) := do
  let s ← get
  set { s with requestCount := s.requestCount + 1, requests := s.requests ++ [request] }
  return runtime.generate s.requests.length request

def validateRuntimeResponse (runtime : ModelRuntime) (response : ModelResponse)
    (stage : PipelineStage) : Except PipelineFailure Unit :=
  refuseIf (isBlank response.text = true ∨ response.runtimeId ≠ runtime.runtimeId stage ∨
      response.modelId ≠ runtime.modelId stage)
    (stageFailure stage "MODEL_RESPONSE_INVALID"
      "Local model output or runtime identity was invalid" true)

/-! ## What the requests of a stage do to the conversation -/

section Steps

variable {runtime : ModelRuntime} {stage : PipelineStage} {s s' : Conversation}

theorem checkCancellation_ok {u : Unit} (run : checkCancellation runtime stage s = .ok u s') :
    s' = { s with checkpoints := s.checkpoints + 1 } := by
  unfold checkCancellation at run
  simp only [bind_ok_iff] at run
  obtain ⟨_, _, ⟨rfl, rfl⟩, _, _, ⟨rfl, rfl⟩, run⟩ := run
  split at run
  · cases run
  · cases run
    rfl

theorem reserveModelRequestOrdinal_ok {ordinal : Nat}
    (run : reserveModelRequestOrdinal stage s = .ok ordinal s') :
    s' = { s with nextRequestOrdinal := s.nextRequestOrdinal + 1 } := by
  unfold reserveModelRequestOrdinal at run
  simp only [bind_ok_iff] at run
  obtain ⟨_, _, ⟨rfl, rfl⟩, run⟩ := run
  split at run
  · simp only [bind_ok_iff] at run
    obtain ⟨_, _, ⟨rfl, rfl⟩, run⟩ := run
    cases run
    rfl
  · cases run

theorem exchange_ok {request : ModelRequest} {answer : Except ModelRuntimeFailure ModelResponse}
    (run : exchange runtime request s = .ok answer s') :
    s' = { s with requestCount := s.requestCount + 1, requests := s.requests ++ [request] } := by
  cases run
  rfl

/-- An invariant that does not look at the counters of the control survives its checks. -/
theorem keeps_checkCancellation {I : Conversation → Prop}
    (blind : ∀ s, I s → I { s with checkpoints := s.checkpoints + 1 }) :
    Keeps I (checkCancellation runtime stage) := by
  intro s held
  unfold checkCancellation endState
  simp only [bind, EStateM.bind, get, getThe, MonadStateOf.get, EStateM.get, set, EStateM.set]
  split
  · next run =>
      split at run
      · cases run
      · cases run
        exact blind s held
  · next run =>
      split at run
      · cases run
        exact blind s held
      · cases run

theorem keeps_reserveModelRequestOrdinal {I : Conversation → Prop}
    (blind : ∀ s, I s → I { s with nextRequestOrdinal := s.nextRequestOrdinal + 1 }) :
    Keeps I (reserveModelRequestOrdinal stage) := by
  intro s held
  unfold reserveModelRequestOrdinal endState
  simp only [bind, EStateM.bind, get, getThe, MonadStateOf.get, EStateM.get, set]
  split
  · next run =>
      split at run
      · cases run
        exact blind s held
      · cases run
  · next run =>
      split at run
      · cases run
      · cases run
        exact held

end Steps

end DocumentSummarizer.Pipeline
