import DocumentSummarizer.Pipeline.Store

/-! # The lifecycle of one run

An abstract view of the store: the rows that belong to one run, and the steps
that may change them.  It forgets every other run, the clock and the order in
which a transaction touches its tables; `Simulation` shows that each store
operation leaves a run's rows alone or takes them through these steps.
-/

namespace DocumentSummarizer.Pipeline

/-- The rows that carry the work of one run: its own row, events, artifacts and attempts, and
whether a handoff is recorded for it. Profiles, retry lineages, owners and the fields of handoffs
are beside them. -/
structure RunRows where
  row : Option PipelineRun
  events : List PipelineEvent
  artifacts : (kind : ArtifactKind) → Option (ArtifactRow kind)
  synthesisAttempts : Nat → Option (ArtifactRow .synthesized)
  verificationAttempts : Nat → Option (ArtifactRow .verified)
  handedOff : Bool

namespace RunRows

def absent : RunRows where
  row := none
  events := []
  artifacts _ := none
  synthesisAttempts _ := none
  verificationAttempts _ := none
  handedOff := false

def recordArtifact (v : RunRows) (kind : ArtifactKind) (row : ArtifactRow kind) : RunRows :=
  { v with artifacts := Function.update v.artifacts kind (some row) }

def recordSynthesisAttempt (v : RunRows) (ordinal : Nat) (row : ArtifactRow .synthesized) :
    RunRows :=
  { v with synthesisAttempts := Function.update v.synthesisAttempts ordinal (some row) }

def recordVerificationAttempt (v : RunRows) (ordinal : Nat) (row : ArtifactRow .verified) :
    RunRows :=
  { v with verificationAttempts := Function.update v.verificationAttempts ordinal (some row) }

def advance (v : RunRows) (run : PipelineRun) (next : PipelineState)
    (stage : Option PipelineStage) (reason : Option String) (patch : TransitionPatch)
    (now : DateTime) (eventId : String) : RunRows :=
  { v with
    row := some (patch.apply (StateMachine.advanced run next stage now))
    events := v.events ++
      [StateMachine.transitionEvent run next (nextSequenceNo v.events) stage reason now eventId] }

end RunRows

namespace PipelineStage

def checkpointBefore : PipelineStage → PipelineState
  | .ingest => .received
  | .parse => .ingested
  | .normalize => .parsed
  | .structure => .normalized
  | .chunk => .structured
  | .analyze => .chunked
  | .synthesize => .analyzed
  | .verify => .synthesized

def active : PipelineStage → PipelineState
  | .ingest => .ingesting
  | .parse => .parsing
  | .normalize => .normalizing
  | .structure => .structuring
  | .chunk => .chunking
  | .analyze => .analyzing
  | .synthesize => .synthesizing
  | .verify => .verifying

def checkpoint : PipelineStage → PipelineState
  | .ingest => .ingested
  | .parse => .parsed
  | .normalize => .normalized
  | .structure => .structured
  | .chunk => .chunked
  | .analyze => .analyzed
  | .synthesize => .synthesized
  | .verify => .verified

end PipelineStage

/-- What a transition does to a run, with the data it writes beside the row. -/
inductive Move where
  | start (stage : PipelineStage)
  | ingest
  | complete (kind : ArtifactKind) (artifact : kind.Artifact) (warnings : List PipelineWarning)
  | rewind (stage : PipelineStage)
  | finish (summary : SummaryArtifact) (citations : CitationArtifact)
  | fail (source : PipelineState) (failure : PipelineFailure)
  | requestCancellation (source : PipelineState)
  | completeCancellation

namespace Move

/-- The stage whose completion stores an artifact of the kind. -/
def producer : ArtifactKind → Option PipelineStage
  | .parsed => some .parse
  | .normalized => some .normalize
  | .structured => some .structure
  | .chunked => some .chunk
  | .analyzed => some .analyze
  | .synthesized => some .synthesize
  | .verified => some .verify
  | .summary | .citation => none

def source : Move → PipelineState
  | .start stage => stage.checkpointBefore
  | .ingest => .ingesting
  | .complete kind _ _ => (producer kind).elim .verified PipelineStage.active
  | .rewind stage => stage.active
  | .finish _ _ => .verified
  | .fail source _ => source
  | .requestCancellation source => source
  | .completeCancellation => .cancelling

def target : Move → PipelineState
  | .start stage => stage.active
  | .ingest => .ingested
  | .complete kind _ _ => (producer kind).elim .complete PipelineStage.checkpoint
  | .rewind stage => stage.checkpointBefore
  | .finish summary _ => if summary.warnings.isEmpty then .complete else .completeWithWarnings
  | .fail _ _ => .failed
  | .requestCancellation _ => .cancelling
  | .completeCancellation => .cancelled

def patch : Move → TransitionPatch
  | .start _ | .ingest | .rewind _ => {}
  | .complete _ _ warnings => { warnings := some warnings }
  | .finish summary _ => { warnings := some summary.warnings }
  | .fail _ failure => { failure := some failure }
  | .requestCancellation _ | .completeCancellation => { cancellationRequested := some true }

/-- The rows written before the transition itself. -/
def record (codec : Codec) : Move → RunRows → RunRows
  | .complete .synthesized artifact _, v =>
    (v.recordArtifact .synthesized (.of codec _ artifact)).recordSynthesisAttempt 0
      (.of codec .synthesized artifact)
  | .complete .verified artifact _, v =>
    (v.recordVerificationAttempt artifact.synthesisAttemptOrdinal
      (.of codec .verified artifact)).recordArtifact .verified (.of codec _ artifact)
  | .complete kind artifact _, v => v.recordArtifact kind (.of codec kind artifact)
  | .finish summary citations, v =>
    (v.recordArtifact .summary (.of codec .summary summary)).recordArtifact .citation
      (.of codec .citation citations)
  | _, v => v

/-- The attempt rows beside the artifact are new, and a verification has its synthesis. -/
def AttemptsAdmit (v : RunRows) : (kind : ArtifactKind) → kind.Artifact → Prop
  | .synthesized, _ => v.synthesisAttempts 0 = none
  | .verified, artifact =>
    v.verificationAttempts artifact.synthesisAttemptOrdinal = none ∧
      v.synthesisAttempts artifact.synthesisAttemptOrdinal ≠ none
  | _, _ => True

/-- The guard of the operation, beyond the transition's own. -/
def Permitted (v : RunRows) (run : PipelineRun) : Move → Prop
  | .start stage => stage = .normalize → v.handedOff = false
  | .ingest => True
  | .complete kind artifact _ =>
    (producer kind).isSome = true ∧
      (kind ≠ .parsed → kind.documentId artifact = run.documentId) ∧
      v.artifacts kind = none ∧ AttemptsAdmit v kind artifact
  | .rewind stage => stage ≠ .ingest
  | .finish summary citations =>
    summary.documentId = run.documentId ∧ citations.documentId = run.documentId ∧
      v.artifacts .summary = none ∧ v.artifacts .citation = none
  | .fail source _ => source.canRequestCancellation = true
  | .requestCancellation source => source.canRequestCancellation = true
  | .completeCancellation => run.cancellationRequested = true

end Move

/-- What one step does to the rows of run `runId`. -/
inductive Label where
  | create (run : PipelineRun)
  | move (move : Move)
  | attempt (ordinal : Nat)
  | handOff

inductive Step (codec : Codec) (runId : String) : RunRows → Label → RunRows → Prop where
  | create {v run event} (absent : v.row = none) (key : run.runId = runId)
      (state : run.state = .received) (version : run.stateVersion = 1)
      (owner : event.runId = runId) (sequenceNo : event.sequenceNo = 0)
      (previous : event.previousState = none) (next : event.nextState = .received) :
      Step codec runId v (.create run) { v with row := some run, events := v.events ++ [event] }
  | move {v run} (m : Move) (stage reason now eventId) (row : v.row = some run)
      (key : run.runId = runId) (state : run.state = m.source)
      (edge : StateMachine.isValidTransition m.source m.target = true)
      (room : run.stateVersion + 1 ≤ u32Max) (permitted : m.Permitted v run) :
      Step codec runId v (.move m)
        ((m.record codec v).advance run m.target stage reason m.patch now eventId)
  | attempt {v run} (ordinal row) (present : v.row = some run) (state : run.state = .verifying)
      (absent : v.verificationAttempts ordinal = none)
      (synthesized : v.synthesisAttempts ordinal ≠ none) :
      Step codec runId v (.attempt ordinal) (v.recordVerificationAttempt ordinal row)
  | handOff {v run} (present : v.row = some run) (state : run.state = .parsed) :
      Step codec runId v .handOff { v with handedOff := true }

theorem Step.absent_of_create {codec : Codec} {runId : String} {v w : RunRows} {run}
    (h : Step codec runId v (.create run) w) : v.row = none := by
  generalize made : Label.create run = label at h
  cases h with
  | create absent => exact absent
  | move | attempt | handOff => cases made

theorem Step.of_move {codec : Codec} {runId : String} {v w : RunRows} {m : Move}
    (h : Step codec runId v (.move m) w) :
    ∃ run stage reason now eventId, v.row = some run ∧ run.runId = runId ∧
      run.state = m.source ∧ StateMachine.isValidTransition m.source m.target = true ∧
      run.stateVersion + 1 ≤ u32Max ∧ m.Permitted v run ∧
      w = (m.record codec v).advance run m.target stage reason m.patch now eventId := by
  cases h with
  | @move run m stage reason now eventId row key state edge room permitted =>
      exact ⟨run, stage, reason, now, eventId, row, key, state, edge, room, permitted, rfl⟩

/-- Some step under an allowed label. -/
def Next (codec : Codec) (allowed : Label → Prop) (runId : String) (v w : RunRows) : Prop :=
  ∃ label, allowed label ∧ Step codec runId v label w

theorem Next.path_mono {codec : Codec} {allowed more : Label → Prop} {runId : String}
    {v w : RunRows} (weaker : ∀ label, allowed label → more label)
    (path : Relation.ReflTransGen (Next codec allowed runId) v w) :
    Relation.ReflTransGen (Next codec more runId) v w := by
  induction path with
  | refl => exact .refl
  | tail _ last ih =>
      obtain ⟨label, ok, step⟩ := last
      exact ih.tail ⟨label, weaker label ok, step⟩

/-- The labels under which a transaction brings a new run up to a checkpoint. -/
inductive Onboarding (run : PipelineRun) : Label → Prop where
  | create : Onboarding run (.create run)
  | startIngest : Onboarding run (.move (.start .ingest))
  | ingest : Onboarding run (.move .ingest)
  | startParse : Onboarding run (.move (.start .parse))
  | completeParse {parsed warnings} : Onboarding run (.move (.complete .parsed parsed warnings))

/-- The rows of the store that belong to a run. -/
def Store.rowsOf (s : Store) (runId : String) : RunRows where
  row := getPipelineRun s runId
  events := s.pipelineEvents.filter (·.runId = runId)
  artifacts kind := (s.artifacts kind).lookup runId
  synthesisAttempts ordinal := s.synthesisAttempts.lookup (runId, ordinal)
  verificationAttempts ordinal := s.verificationAttempts.lookup (runId, ordinal)
  handedOff := s.ocrHandoffs.any (·.rootRunId = runId)

/-- Every run's document is stored, as its foreign key demands. -/
def DocumentsPresent (s : Store) : Prop :=
  ∀ runId run, getPipelineRun s runId = some run → run.documentId ∈ s.documents

end DocumentSummarizer.Pipeline
