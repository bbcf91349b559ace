import DocumentSummarizer.Pipeline.Contracts
import DocumentSummarizer.Library.Fallible

/-! # The pipeline state machine

`StateMachine.transition` checks the expected state and version against the
run, admits the edge, bumps the version and returns the event that records it.
-/

namespace DocumentSummarizer.Pipeline

open Library

inductive TransitionError where
  | staleExpectedState (expected found : PipelineState)
  | invalidTransition (source target : PipelineState)
  | concurrentModification (expected found : Nat)
  | versionExhausted (version : Nat)
  deriving DecidableEq, Repr

/-- The clock and the UUID generator as one transaction sees them: its `n`-th
reading of each. -/
structure Ambient where
  now : Nat → DateTime
  newV4 : Nat → String

namespace StateMachine

def isValidTransition (source target : PipelineState) : Bool :=
  if source.isTerminal then
    false
  else if target = .failed ∨ target = .cancelling then
    true
  else match source, target with
    | .received, .ingesting => true
    | .ingesting, .ingested => true
    | .ingested, .parsing => true
    | .parsing, .parsed => true
    | .parsed, .normalizing => true
    | .normalizing, .normalized => true
    | .normalized, .structuring => true
    | .structuring, .structured => true
    | .structured, .chunking => true
    | .chunking, .chunked => true
    | .chunked, .analyzing => true
    | .analyzing, .analyzed => true
    | .analyzed, .synthesizing => true
    | .synthesizing, .synthesized => true
    | .synthesized, .verifying => true
    | .verifying, .verified => true
    -- restart recovery edges
    | .parsing, .ingested => true
    | .normalizing, .parsed => true
    | .structuring, .normalized => true
    | .chunking, .structured => true
    | .analyzing, .chunked => true
    | .synthesizing, .analyzed => true
    | .verifying, .synthesized => true
    | .verified, .complete => true
    | .verified, .completeWithWarnings => true
    | .cancelling, .cancelled => true
    | _, _ => false

/-- The run row after an admitted transition at instant `now`. -/
def advanced (run : PipelineRun) (next : PipelineState) (stage : Option PipelineStage)
    (now : DateTime) : PipelineRun :=
  { run with
    state := next
    stateVersion := run.stateVersion + 1
    updatedAt := now
    currentStage := stage.or run.currentStage
    completedAt := if next.isTerminal then some now else run.completedAt
    startedAt := if next = .ingesting ∧ run.startedAt.isNone then some now else run.startedAt }

def transitionEvent (run : PipelineRun) (next : PipelineState) (sequenceNo : Nat)
    (stage : Option PipelineStage) (reason : Option String) (now : DateTime) (eventId : String) :
    PipelineEvent where
  eventId := eventId
  runId := run.runId
  sequenceNo := sequenceNo
  previousState := some run.state
  nextState := next
  timestamp := now
  stage := stage
  workUnitId := none
  reason := reason

def transition (run : PipelineRun) (expected next : PipelineState) (expectedVersion : Nat)
    (sequenceNo : Nat) (stage : Option PipelineStage) (reason : Option String) (now : DateTime)
    (eventId : String) : Except TransitionError (PipelineRun × PipelineEvent) := do
  refuseIf (run.state ≠ expected) (.staleExpectedState expected run.state)
  refuseIf (run.stateVersion ≠ expectedVersion)
    (.concurrentModification expectedVersion run.stateVersion)
  refuseIf (isValidTransition run.state next = false) (.invalidTransition run.state next)
  refuseIf (u32Max < run.stateVersion + 1) (.versionExhausted run.stateVersion)
  return (advanced run next stage now,
    transitionEvent run next sequenceNo stage reason now eventId)

theorem transition_ok_iff {run expected next expectedVersion sequenceNo stage reason now eventId}
    {result : PipelineRun × PipelineEvent} :
    transition run expected next expectedVersion sequenceNo stage reason now eventId = .ok result ↔
      run.state = expected ∧ run.stateVersion = expectedVersion ∧
      isValidTransition run.state next = true ∧ run.stateVersion + 1 ≤ u32Max ∧
      (advanced run next stage now,
        transitionEvent run next sequenceNo stage reason now eventId) = result := by
  simp only [transition, peel_ok, refuseIf_eq_ok, return_ok, exists_const, not_not, ne_eq,
    Bool.not_eq_false, Nat.not_lt]

theorem terminal_has_no_edge {source target} (h : source.isTerminal = true) :
    isValidTransition source target = false := by
  simp only [isValidTransition, h, if_true]

end StateMachine

end DocumentSummarizer.Pipeline
