import Mathlib.Data.List.Induction
import DocumentSummarizer.Pipeline.EventChain

/-! # Persisted state describes completed work

Which artifacts a run holds is a function of its state, up to the moment a
failure or a cancellation interrupted it; for runs that enter as
`prepareReceivedRun` makes them, so are the failure, the completion time and the
cancellation flag.
-/

namespace DocumentSummarizer.Pipeline

open Library

/-- The artifacts of the stages, in the order the stages complete. -/
def stageArtifacts : List ArtifactKind :=
  [.parsed, .normalized, .structured, .chunked, .analyzed, .synthesized, .verified]

namespace ArtifactKind

/-- The number of artifacts a run has once it has this one. -/
def rank : ArtifactKind → Nat
  | .parsed => 1
  | .normalized => 2
  | .structured => 3
  | .chunked => 4
  | .analyzed => 5
  | .synthesized => 6
  | .verified => 7
  | .summary => 8
  | .citation => 8

theorem rank_pos (kind : ArtifactKind) : 0 < kind.rank := by
  cases kind <;> decide

theorem rank_inj {a b : ArtifactKind} (stage : a.rank ≤ 7) (same : a.rank = b.rank) : a = b := by
  revert stage same
  cases a <;> cases b <;> decide

theorem mem_stageArtifacts {kind : ArtifactKind} : kind ∈ stageArtifacts ↔ kind.rank ≤ 7 := by
  cases kind <;> decide

theorem mem_take_stageArtifacts {kind : ArtifactKind} {n : Nat} :
    kind ∈ stageArtifacts.take n ↔ kind.rank ≤ 7 ∧ kind.rank ≤ n := by
  match n with
  | 0 | 1 | 2 | 3 | 4 | 5 | 6 => cases kind <;> decide
  | n + 7 =>
      have all : stageArtifacts.take (n + 7) = stageArtifacts :=
        List.take_of_length_le (Nat.le_add_left 7 n)
      rw [all, mem_stageArtifacts]
      omega

end ArtifactKind

/-- How many stage artifacts a run in a checkpoint, active or completed state has. -/
def PipelineState.completedStages : PipelineState → Option Nat
  | .received | .ingesting | .ingested | .parsing => some 0
  | .parsed | .normalizing => some 1
  | .normalized | .structuring => some 2
  | .structured | .chunking => some 3
  | .chunked | .analyzing => some 4
  | .analyzed | .synthesizing => some 5
  | .synthesized | .verifying => some 6
  | .verified | .complete | .completeWithWarnings => some 7
  | .failed | .cancelling | .cancelled => none
  | .visualAnalysisRequired | .visualAnalyzing | .visualAnalyzed => none

def PipelineState.isDelivered : PipelineState → Bool
  | .complete | .completeWithWarnings => true
  | _ => false

/-- The stages before `n` are complete and nothing else is stored. -/
def RunRows.HoldsExactly (v : RunRows) (n : Nat) : Prop :=
  ∀ kind, v.artifacts kind ≠ none ↔ kind.rank ≤ n

/-- The number of artifacts that state `state` admits. -/
def PipelineState.Admits (state : PipelineState) (n : Nat) : Prop :=
  match state with
  | .received | .ingesting | .ingested | .parsing => n = 0
  | .parsed | .normalizing => n = 1
  | .normalized | .structuring => n = 2
  | .structured | .chunking => n = 3
  | .chunked | .analyzing => n = 4
  | .analyzed | .synthesizing => n = 5
  | .synthesized | .verifying => n = 6
  | .verified => n = 7
  | .complete | .completeWithWarnings => n = 8
  | .failed | .cancelling | .cancelled => n ≤ 7
  | .visualAnalysisRequired | .visualAnalyzing | .visualAnalyzed => False

theorem Admits_of_cancellable {state : PipelineState} {n}
    (active : state.canRequestCancellation = true) (h : state.Admits n) : n ≤ 7 := by
  cases state <;> simp_all [PipelineState.Admits, PipelineState.canRequestCancellation,
    PipelineState.activeStage]

theorem holdsExactly_record {v : RunRows} {kind : ArtifactKind} {row n} (h : v.HoldsExactly n)
    (next : kind.rank = n + 1) (stage : kind.rank ≤ 7) :
    (v.recordArtifact kind row).HoldsExactly (n + 1) := by
  intro other
  by_cases same : other = kind
  · subst same
    simp only [RunRows.recordArtifact, Function.update_self, ne_eq, reduceCtorEq,
      not_false_eq_true, next, le_refl]
  · have apart : other.rank ≠ n + 1 := by
      intro equal
      exact same (ArtifactKind.rank_inj stage (next.trans equal.symm)).symm
    simp only [RunRows.recordArtifact, Function.update_of_ne same]
    rw [h other]
    omega

theorem holdsExactly_finish {v : RunRows} {summary citations} (h : v.HoldsExactly 7) :
    ((v.recordArtifact .summary summary).recordArtifact .citation citations).HoldsExactly 8 := by
  intro other
  have before := h other
  cases other with
  | summary | citation => simp [RunRows.recordArtifact, ArtifactKind.rank]
  | parsed | normalized | structured | chunked | analyzed | synthesized | verified =>
      simpa [RunRows.recordArtifact, ArtifactKind.rank] using before

/-- The run's artifacts are those of a state it can be in. -/
structure WorkRecorded (v : RunRows) : Prop where
  absent : v.row = none → v = .absent
  present : ∀ run, v.row = some run → ∃ n, run.state.Admits n ∧ v.HoldsExactly n

theorem WorkRecorded.start : WorkRecorded .absent where
  absent _ := rfl
  present _ h := nomatch h

variable {codec : Codec}

theorem Move.complete_record {v : RunRows} {kind : ArtifactKind}
    {artifact : kind.Artifact} {warnings n} (stage : (producer kind).isSome = true)
    (h : v.HoldsExactly n) (active : (Move.complete kind artifact warnings).source.Admits n) :
    (Move.complete kind artifact warnings).target.Admits (n + 1) ∧
      ((Move.complete kind artifact warnings).record codec v).HoldsExactly (n + 1) := by
  cases kind with
  | summary | citation => cases stage
  | parsed | normalized | structured | chunked | analyzed =>
      obtain rfl := active
      exact ⟨rfl, holdsExactly_record h rfl (by decide)⟩
  | synthesized | verified =>
      obtain rfl := active
      exact ⟨rfl, holdsExactly_record h rfl (by decide)⟩

theorem Move.record_admits {v : RunRows} {run m} {n : Nat}
    (permitted : Move.Permitted v run m) (source : m.source.Admits n) (h : v.HoldsExactly n) :
    ∃ k, m.target.Admits k ∧ (m.record codec v).HoldsExactly k := by
  cases m with
  | start stage =>
      refine ⟨n, ?_, h⟩
      cases stage <;> exact source
  | ingest => exact ⟨n, source, h⟩
  | complete kind artifact warnings =>
      exact ⟨n + 1, Move.complete_record permitted.1 h source⟩
  | rewind stage =>
      refine ⟨n, ?_, h⟩
      cases stage <;> exact source
  | finish summary citations =>
      obtain rfl := source
      refine ⟨8, ?_, holdsExactly_finish h⟩
      simp only [Move.target]
      split <;> rfl
  | fail source failure => exact ⟨n, Admits_of_cancellable permitted ‹_›, h⟩
  | requestCancellation source => exact ⟨n, Admits_of_cancellable permitted ‹_›, h⟩
  | completeCancellation => exact ⟨n, source, h⟩

theorem WorkRecorded.step {codec runId v label w} (h : WorkRecorded v)
    (step : Step codec runId v label w) : WorkRecorded w := by
  cases step with
  | @create run event absent key state version owner sequenceNo previous next =>
      obtain rfl := h.absent absent
      refine ⟨nofun, fun run' row => ?_⟩
      obtain rfl := Option.some.inj row
      refine ⟨0, by rw [state]; rfl, fun kind => ?_⟩
      have := kind.rank_pos
      simp only [RunRows.absent, ne_eq, not_true_eq_false, false_iff]
      omega
  | @move run m stage reason now eventId row key state edge room permitted =>
      obtain ⟨n, admits, exactly⟩ := h.present run row
      refine ⟨nofun, fun run' row' => ?_⟩
      obtain rfl := Option.some.inj row'
      rw [state] at admits
      exact Move.record_admits permitted admits exactly
  | @attempt run ordinal row present state absent synthesized =>
      refine ⟨fun none => ?_, fun run' row' => h.present run' row'⟩
      cases present.symm.trans none
  | @handOff run present state =>
      refine ⟨fun none => ?_, fun run' row' => h.present run' row'⟩
      cases present.symm.trans none

theorem Reachable.workRecorded {codec s} (h : Reachable codec s) (runId : String) :
    WorkRecorded (s.rowsOf runId) :=
  h.rows_invariant WorkRecorded.start fun _ _ _ recorded step => recorded.step step

/-! ## The fields of a prepared run -/

/-- The fields of the row that repeat what its state says. -/
structure FieldsAgree (run : PipelineRun) : Prop where
  failure : run.failure.isSome = true ↔ run.state = .failed
  completedAt : run.completedAt.isSome = true ↔ run.state.isTerminal = true
  cancellationRequested : run.cancellationRequested = true ↔
    run.state = .cancelling ∨ run.state = .cancelled

theorem prepareReceivedRun_fieldsAgree (runId documentId : String) (createdAt : DateTime) :
    FieldsAgree (prepareReceivedRun runId documentId createdAt) := by
  constructor <;> simp [prepareReceivedRun, PipelineState.isTerminal]

theorem not_terminal_of_edge {source target}
    (edge : StateMachine.isValidTransition source target = true) : source.isTerminal = false := by
  cases terminal : source.isTerminal with
  | false => rfl
  | true =>
      rw [StateMachine.terminal_has_no_edge terminal] at edge
      cases edge

namespace FieldsAgree

variable {run : PipelineRun} (h : FieldsAgree run) (unfinished : run.state.isTerminal = false)
include h unfinished

theorem no_failure : run.failure = none := by
  rw [← Option.not_isSome_iff_eq_none, h.failure]
  intro failed
  rw [failed] at unfinished
  cases unfinished

theorem no_completedAt : run.completedAt = none := by
  rw [← Option.not_isSome_iff_eq_none, h.completedAt, unfinished]
  exact Bool.false_ne_true

theorem no_cancellation (running : run.state ≠ .cancelling) :
    run.cancellationRequested = false := by
  rw [Bool.eq_false_iff, ne_eq, h.cancellationRequested]
  rintro (cancelling | cancelled)
  · exact running cancelling
  · rw [cancelled] at unfinished
    cases unfinished

end FieldsAgree

theorem FieldsAgree.move {v : RunRows} {run : PipelineRun} {m : Move} {stage now}
    (h : FieldsAgree run) (state : run.state = m.source)
    (edge : StateMachine.isValidTransition m.source m.target = true)
    (permitted : m.Permitted v run) :
    FieldsAgree (m.patch.apply (StateMachine.advanced run m.target stage now)) := by
  have unfinished : run.state.isTerminal = false := state ▸ not_terminal_of_edge edge
  have failure := h.no_failure unfinished
  have completedAt := h.no_completedAt unfinished
  have cancellation := h.no_cancellation unfinished
  rw [state] at cancellation
  cases m with
  | start stage =>
      have requested := cancellation (by cases stage <;> rintro ⟨⟩)
      constructor <;> cases stage <;>
        simp_all [TransitionPatch.apply, StateMachine.advanced, Move.patch, Move.target,
          PipelineStage.active, PipelineState.isTerminal]
  | ingest =>
      have requested := cancellation (by rintro ⟨⟩)
      constructor <;>
        simp_all [TransitionPatch.apply, StateMachine.advanced, Move.patch, Move.target,
          PipelineState.isTerminal]
  | complete kind artifact warnings =>
      have requested := cancellation (by cases kind <;> rintro ⟨⟩)
      constructor <;> cases kind <;>
        simp_all [TransitionPatch.apply, StateMachine.advanced, Move.patch, Move.target,
          Move.producer, PipelineStage.checkpoint, PipelineState.isTerminal]
  | rewind stage =>
      have requested := cancellation (by cases stage <;> rintro ⟨⟩)
      constructor <;> cases stage <;>
        simp_all [TransitionPatch.apply, StateMachine.advanced, Move.patch, Move.target,
          PipelineStage.checkpointBefore, PipelineState.isTerminal]
  | finish summary citations =>
      have requested := cancellation (by rintro ⟨⟩)
      cases quiet : summary.warnings.isEmpty <;> constructor <;>
        simp_all [TransitionPatch.apply, StateMachine.advanced, Move.patch, Move.target,
          PipelineState.isTerminal]
  | fail source cause =>
      have requested := cancellation (fun cancelling => by
        rw [Move.Permitted, show source = .cancelling from cancelling] at permitted
        cases permitted)
      constructor <;>
        simp_all [TransitionPatch.apply, StateMachine.advanced, Move.patch, Move.target,
          PipelineState.isTerminal]
  | requestCancellation source =>
      constructor <;>
        simp_all [TransitionPatch.apply, StateMachine.advanced, Move.patch, Move.target,
          PipelineState.isTerminal]
  | completeCancellation =>
      constructor <;>
        simp_all [TransitionPatch.apply, StateMachine.advanced, Move.patch, Move.target,
          PipelineState.isTerminal]

def RowAgrees (v : RunRows) : Prop :=
  ∀ run, v.row = some run → FieldsAgree run

theorem RowAgrees.step {codec runId v label w} (h : RowAgrees v)
    (prepared : ∀ run, label = .create run → FieldsAgree run)
    (step : Step codec runId v label w) : RowAgrees w := by
  intro run' row'
  cases step with
  | create =>
      obtain rfl := Option.some.inj row'
      exact prepared _ rfl
  | @move run m stage reason now eventId row key state edge room permitted =>
      obtain rfl := Option.some.inj row'
      exact (h run row).move state edge permitted
  | attempt | handOff => exact h run' row'

theorem Step.row_ne_none {codec runId v label w} (step : Step codec runId v label w) :
    w.row ≠ none := by
  cases step with
  | create | move => nofun
  | attempt ordinal row present => exact fun none => nomatch present.symm.trans none
  | handOff present => exact fun none => nomatch present.symm.trans none

/-- The row an operation offers as a new run. -/
def Operation.createdRun : Operation → Option PipelineRun
  | .persistIngestion _ run _ _ | .persistCorrectedDocument _ run _ _ | .createRetryRun _ _ run
  | .admitOcrChild _ _ run => some run
  | _ => none

theorem Operation.createdRun_of_allows {op : Operation} {runId run}
    (h : op.Allows runId (.create run)) : op.createdRun = some run := by
  cases op with
  | persistIngestion | persistCorrectedDocument | createRetryRun =>
      obtain ⟨-, onboarding⟩ := h
      cases onboarding
      rfl
  | admitOcrChild =>
      rcases h with ⟨-, onboarding⟩ | ⟨-, failure, other⟩
      · cases onboarding
        rfl
      · cases other
  | reconcileInterruptedRunsInTransaction =>
      obtain ⟨candidate, -, -, other⟩ := h
      cases other
  | reconcileInterruptedRuns =>
      rcases h with other | ⟨_, _, other⟩ <;> cases other
  | failBackgroundExecution =>
      obtain ⟨-, other | other⟩ := h <;> cases other
  | requestCancellation | rewindInterruptedOcrChild =>
      obtain ⟨-, _, other⟩ := h
      cases other
  | ensureRunModelProfile | ensureRunSummaryProfile | transitionOcrHandoff | storeOcrOutputs
  | failOcrHandoff | markOcrHandoffCompletedForChild | getOrCreateProfileSuggestionOwner =>
      cases h
  | _ =>
      obtain ⟨-, other⟩ := h
      cases other

/-- The call that created the run passed a row made by `prepareReceivedRun`. -/
def CreatedFromPrepared (codec : Codec) (calls : List Call) (runId : String) : Prop :=
  ∀ front call back s, calls = front ++ call :: back →
    (storeMachine codec).Run Store.empty front s → getPipelineRun s runId = none →
    getPipelineRun (call.after codec s) runId ≠ none →
    ∃ documentId createdAt,
      call.operation.createdRun = some (prepareReceivedRun runId documentId createdAt)

theorem rowAgrees_of_existing {call : Call} {s : Store} {runId}
    (existing : (s.rowsOf runId).row ≠ none) (h : RowAgrees (s.rowsOf runId)) :
    RowAgrees ((call.after codec s).rowsOf runId) := by
  have both := Machine.path_preserves (P := fun v => v.row ≠ none ∧ RowAgrees v) ?_
    ((call_follows codec call s).path runId) ⟨existing, h⟩
  · exact both.2
  · rintro v w ⟨label, -, step⟩ ⟨present, agrees⟩
    refine ⟨step.row_ne_none, agrees.step (fun run created => ?_) step⟩
    subst created
    exact absurd step.absent_of_create present

theorem rowAgrees_of_created {call : Call} {s : Store} {runId documentId createdAt}
    (created : call.operation.createdRun = some (prepareReceivedRun runId documentId createdAt))
    (h : RowAgrees (s.rowsOf runId)) : RowAgrees ((call.after codec s).rowsOf runId) := by
  refine Machine.path_preserves ?_ ((call_follows codec call s).path runId) h
  rintro v w ⟨label, allowed, step⟩ agrees
  refine agrees.step (fun run isCreate => ?_) step
  subst isCreate
  have same := (Operation.createdRun_of_allows allowed).symm.trans created
  obtain rfl := Option.some.inj same
  exact prepareReceivedRun_fieldsAgree runId documentId createdAt

theorem rowAgrees_of_run {runId} (calls : List Call) :
    ∀ t, (storeMachine codec).Run Store.empty calls t → CreatedFromPrepared codec calls runId →
      RowAgrees (t.rowsOf runId) := by
  induction calls using List.reverseRecOn with
  | nil =>
      intro t run _ row found
      cases run
      cases found
  | append_singleton front call ih =>
      intro t run prepared
      obtain ⟨s, before, last⟩ := run.of_append
      cases last with
      | cons step rest =>
          cases rest
          obtain rfl : t = call.after codec s := step
          have earlier : CreatedFromPrepared codec front runId := by
            intro front' call' back' s' split
            exact prepared front' call' (back' ++ [call]) s' (by simp [split])
          have h := ih s before earlier
          by_cases existing : getPipelineRun s runId = none
          · by_cases missing : getPipelineRun (call.after codec s) runId = none
            · intro row found
              cases missing.symm.trans found
            · obtain ⟨documentId, createdAt, created⟩ :=
                prepared front call [] s rfl before existing missing
              exact rowAgrees_of_created created h
          · exact rowAgrees_of_existing existing h

/-! ## The whole of it -/

/-- The store holds an artifact of the kind for the run. -/
def Store.holds (s : Store) (kind : ArtifactKind) (runId : String) : Bool :=
  ((s.artifacts kind).lookup runId).isSome

theorem holds_iff {s : Store} {kind runId} :
    s.holds kind runId = true ↔ (s.rowsOf runId).artifacts kind ≠ none :=
  Option.isSome_iff_ne_none

theorem completedStages_eq {state : PipelineState} {n k : Nat} (admits : state.Admits n)
    (h : state.completedStages = some k) : min n 7 = k := by
  cases state <;> simp_all [PipelineState.Admits, PipelineState.completedStages] <;> omega

theorem isDelivered_iff {state : PipelineState} {n : Nat} (admits : state.Admits n) :
    8 ≤ n ↔ state.isDelivered = true := by
  cases state <;> simp_all [PipelineState.Admits, PipelineState.isDelivered] <;> omega

/-- What a run stores and what its row says are the completed work its state names. -/
theorem persisted_state_describes_completed_work (codec : Codec) {calls : List Call} {t : Store}
    (run : (storeMachine codec).Run Store.empty calls t) {runId : String}
    (prepared : CreatedFromPrepared codec calls runId) {row : PipelineRun}
    (found : getPipelineRun t runId = some row) :
    (∀ k, row.state.completedStages = some k → ∀ kind ∈ stageArtifacts,
      (t.holds kind runId = true ↔ kind ∈ stageArtifacts.take k)) ∧
    (row.state = .failed ∨ row.state = .cancelling ∨ row.state = .cancelled →
      ∃ k, ∀ kind ∈ stageArtifacts,
        (t.holds kind runId = true ↔ kind ∈ stageArtifacts.take k)) ∧
    (t.holds .summary runId = true ↔ row.state = .complete ∨ row.state = .completeWithWarnings) ∧
    (t.holds .citation runId = true ↔
      row.state = .complete ∨ row.state = .completeWithWarnings) ∧
    (row.failure.isSome = true ↔ row.state = .failed) ∧
    (row.completedAt.isSome = true ↔ row.state.isTerminal = true) ∧
    (row.cancellationRequested = true ↔ row.state = .cancelling ∨ row.state = .cancelled) := by
  have reach : Reachable codec t := ⟨Store.empty, calls, rfl, run⟩
  obtain ⟨n, admits, exactly⟩ := (reach.workRecorded runId).present row found
  have fields := rowAgrees_of_run calls t run prepared row found
  have stored : ∀ kind, t.holds kind runId = true ↔ kind.rank ≤ n := fun kind =>
    holds_iff.trans (exactly kind)
  have delivered : row.state.isDelivered = true ↔
      row.state = .complete ∨ row.state = .completeWithWarnings := by
    cases row.state <;> decide
  refine ⟨?_, ?_, ?_, ?_, fields.failure, fields.completedAt, fields.cancellationRequested⟩
  · intro k completed kind stage
    have bound := ArtifactKind.mem_stageArtifacts.mp stage
    have count := completedStages_eq admits completed
    rw [stored, ArtifactKind.mem_take_stageArtifacts]
    omega
  · intro _
    refine ⟨n, fun kind stage => ?_⟩
    have bound := ArtifactKind.mem_stageArtifacts.mp stage
    rw [stored, ArtifactKind.mem_take_stageArtifacts]
    omega
  · rw [stored, ← delivered, ← isDelivered_iff admits]
    rfl
  · rw [stored, ← delivered, ← isDelivered_iff admits]
    rfl

theorem createdFromPrepared_of_offers {calls : List Call} {runId : String}
    (offers : ∀ call ∈ calls, ∀ run, call.operation.createdRun = some run →
      ∃ documentId createdAt, run = prepareReceivedRun runId documentId createdAt) :
    CreatedFromPrepared codec calls runId := by
  intro front call back s split _ absent created
  have reached := Machine.path_preserves (P := fun v => v.row = none ∨
      ∃ run, call.operation.createdRun = some run) ?_
    ((call_follows codec call s).path runId) (.inl absent)
  · rcases reached with missing | ⟨run, offered⟩
    · exact absurd missing created
    · obtain ⟨documentId, createdAt, rfl⟩ := offers call (by simp [split]) run offered
      exact ⟨documentId, createdAt, offered⟩
  · rintro v w ⟨label, allowed, step⟩ (missing | offered)
    · cases step with
      | create => exact .inr ⟨_, Operation.createdRun_of_allows allowed⟩
      | move _ _ _ _ _ row => cases missing.symm.trans row
      | attempt _ _ present => cases missing.symm.trans present
      | handOff present => cases missing.symm.trans present
    · exact .inr offered

/-- A run is parsed, and then normalized and cancelled. -/
def parsingCalls : List Operation :=
  [sampleIngestion, .startParsing "root" 3,
    .completeParsing "root" 4 ⟨"document", "pdf", "1", .nativeText, [], []⟩ []]

def normalizingCalls : List Operation :=
  [.startNormalizing "root" 5, .completeNormalization "root" 6 ⟨"document", "1", [], []⟩ [],
    .requestCancellation "root" 7]

def cancellingStore : Store :=
  Store.empty.afterCalls sampleCodec (sampleCalls (parsingCalls ++ normalizingCalls))

theorem cancelling_run_describes_its_work :
    ∃ row, getPipelineRun cancellingStore "root" = some row ∧ row.state = .cancelling ∧
      row.cancellationRequested = true ∧ cancellingStore.holds .normalized "root" = true ∧
      ∃ k, ∀ kind ∈ stageArtifacts,
        (cancellingStore.holds kind "root" = true ↔ kind ∈ stageArtifacts.take k) := by
  have stored : (getPipelineRun cancellingStore "root").map (·.state) = some .cancelling ∧
      cancellingStore.holds .normalized "root" = true := by
    decide +kernel
  obtain ⟨row, found, cancelling⟩ := Option.map_eq_some_iff.mp stored.1
  have prepared : CreatedFromPrepared sampleCodec
      (sampleCalls (parsingCalls ++ normalizingCalls)) "root" := by
    apply createdFromPrepared_of_offers
    simp [sampleCalls, parsingCalls, normalizingCalls, sampleIngestion, Operation.createdRun]
  obtain ⟨-, stopped, -, -, -, -, requested⟩ := persisted_state_describes_completed_work
    sampleCodec (run_afterCalls sampleCodec .empty _) prepared found
  exact ⟨row, found, cancelling, requested.mpr (.inl cancelling), stored.2,
    stopped (.inr (.inl cancelling))⟩

end DocumentSummarizer.Pipeline
