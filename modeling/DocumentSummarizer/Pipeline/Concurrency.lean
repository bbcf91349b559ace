import DocumentSummarizer.Pipeline.EventChain

/-! # Optimistic concurrency

A caller's expected version is spent by the first operation that moves the run
from it.  A cancelling run accepts one more move, to `Cancelled`, and nothing
else of it changes.
-/

namespace DocumentSummarizer.Pipeline

open Library

/-! ## Expectations -/

/-- The operation carries the pair that its caller read of the run. -/
def Operation.Expects (runId : String) (version : Nat) : Operation → Prop
  | .startParsing r v | .completeParsing r v _ _ | .failParsing r v _
  | .startNormalizing r v | .completeNormalization r v _ _ | .failNormalization r v _
  | .startStructuring r v | .completeStructuring r v _ _ | .failStructuring r v _
  | .startChunking r v | .completeChunking r v _ _ | .failChunking r v _
  | .startAnalysis r v | .completeAnalysis r v _ _ | .failAnalysis r v _
  | .startSynthesis r v | .completeSynthesis r v _ _ | .failSynthesis r v _
  | .startVerification r v | .recordVerificationAttempt r v _ _
  | .completeVerification r v _ _ _ | .failVerification r v _
  | .completeSummary r v _ _ | .failSummary r v _
  | .requestCancellation r v | .completeCancellation r v
  | .failBackgroundExecution r _ v _ | .createRetryRun r v _ => r = runId ∧ v = version
  | .reconcileInterruptedRunsInTransaction interrupted =>
    ∃ candidate ∈ interrupted, candidate.runId = runId ∧ candidate.expectedVersion = version
  | .persistIngestion _ _ _ _ | .persistCorrectedDocument _ _ _ _ | .ensureRunModelProfile _ _
  | .ensureRunSummaryProfile _ _ | .reconcileInterruptedRuns | .prepareOcrHandoff _
  | .transitionOcrHandoff _ _ _ _ | .storeOcrOutputs _ _ _ | .failOcrHandoff _ _ _ _ _
  | .admitOcrChild _ _ _ | .markOcrHandoffCompletedForChild _ | .rewindInterruptedOcrChild _
  | .getOrCreateProfileSuggestionOwner _ _ => False

/-- The operations that compare the version and leave the run where it is. -/
def Operation.checksOnly : Operation → Bool
  | .recordVerificationAttempt _ _ _ _ | .createRetryRun _ _ _ => true
  | _ => false

/-- The operations that may complete a cancellation of the run. -/
def Operation.completesCancellation (runId : String) : Operation → Prop
  | .completeCancellation r _ | .failBackgroundExecution r _ _ _ => r = runId
  | .reconcileInterruptedRunsInTransaction interrupted =>
    ∃ candidate ∈ interrupted, candidate.runId = runId
  | .reconcileInterruptedRuns => True
  | _ => False

/-! ## Versions only grow -/

/-- The run has passed the versions below `n`, or will never move again. -/
def Spent (n : Nat) (v : RunRows) : Prop :=
  ∃ run, v.row = some run ∧ (n ≤ run.stateVersion ∨ run.state = .cancelled)

theorem Spent.step {codec runId n v label w} (h : Spent n v) (step : Step codec runId v label w) :
    Spent n w := by
  obtain ⟨run, row, spent⟩ := h
  cases step with
  | create absent => cases absent.symm.trans row
  | @move run' m stage reason now eventId row' key state edge room permitted =>
      obtain rfl := Option.some.inj (row'.symm.trans row)
      refine ⟨_, rfl, .inl ?_⟩
      rcases spent with passed | cancelled
      · exact Nat.le_succ_of_le passed
      · rw [← state, cancelled, StateMachine.terminal_has_no_edge rfl] at edge
        cases edge
  | attempt | handOff => exact ⟨run, row, spent⟩

variable {s t : Store}

theorem Follows.spent {codec allowed n runId} (h : Follows codec allowed s t)
    (spent : Spent n (s.rowsOf runId)) : Spent n (t.rowsOf runId) := by
  refine Machine.path_preserves ?_ (h.path runId) spent
  rintro v w ⟨label, -, step⟩ hv
  exact hv.step step

theorem run_spent {codec calls n runId}
    (run : (storeMachine codec).Run s calls t) (spent : Spent n (s.rowsOf runId)) :
    Spent n (t.rowsOf runId) := by
  refine run.preserves (P := fun s => Spent n (s.rowsOf runId)) ?_ spent
  rintro s call _ rfl hs
  exact (call_follows codec call s).spent hs

theorem Moved.spends {codec runId version m} (h : Moved codec runId version m s t) :
    ¬ Spent (version + 1) (s.rowsOf runId) ∧ Spent (version + 1) (t.rowsOf runId) := by
  obtain ⟨run, found, current⟩ := h.version
  obtain ⟨-, -, -, -, run', found', -, advanced, -⟩ := h.landed found
  refine ⟨?_, run', found', .inl (Nat.le_of_eq advanced.symm)⟩
  rintro ⟨run₀, row, spent⟩
  obtain rfl := Option.some.inj (found.symm.trans row)
  rcases spent with passed | cancelled
  · omega
  · obtain ⟨run₁, _, _, _, _, row₁, -, state, edge, -⟩ := h.step.step.of_move
    obtain rfl := Option.some.inj (row.symm.trans row₁)
    rw [← state, cancelled, StateMachine.terminal_has_no_edge rfl] at edge
    cases edge

theorem reconcile_spends (codec : Codec) {amb} {interrupted : List InterruptedRunTransition} {runId version} :
    ∀ {reading s t result},
      reconcileInterruptedRunsInTransaction amb reading interrupted s = .ok (result, t) →
      (∃ candidate ∈ interrupted, candidate.runId = runId ∧ candidate.expectedVersion = version) →
      ¬ Spent (version + 1) (s.rowsOf runId) ∧ Spent (version + 1) (t.rowsOf runId) := by
  induction interrupted with
  | nil => exact fun _ ⟨_, mem, _⟩ => nomatch mem
  | cons candidate rest ih =>
      intro reading s t result h ⟨found, mem, key, expected⟩
      simp only [reconcileInterruptedRunsInTransaction, peel_ok, return_ok] at h
      obtain ⟨⟨run, u⟩, first, ⟨runs, w⟩, others, h⟩ := h
      obtain ⟨-, rfl⟩ := Prod.mk.inj h
      have moved : Moved codec candidate.runId candidate.expectedVersion candidate.move s u :=
        reconcileInterruptedRun_ok first
      have front : Follows codec (fun _ _ => True) s u := .of_moved moved trivial
      have back : Follows codec (fun _ _ => True) u w :=
        reconcileInterruptedRunsInTransaction_ok (fun _ _ => trivial) others
      rcases List.mem_cons.mp mem with rfl | later
      · subst key expected
        exact ⟨moved.spends.1, back.spent moved.spends.2⟩
      · obtain ⟨unspent, spent⟩ := ih others ⟨found, later, key, expected⟩
        exact ⟨fun early => unspent (front.spent early), spent⟩

/-! ## What an operation that expects a version does -/

/-- The version was current and the run stays where it is. -/
structure Checked (runId : String) (version : Nat) (s t : Store) : Prop where
  unspent : ¬ Spent (version + 1) (s.rowsOf runId)
  row : (t.rowsOf runId).row = (s.rowsOf runId).row
  events : (t.rowsOf runId).events = (s.rowsOf runId).events

/-- Success of an operation with an expectation: it spends the version, only checks it, or
completes a cancellation whatever it expected. -/
inductive Outcome (codec : Codec) (runId : String) (version : Nat) (op : Operation)
    (s t : Store) : Prop where
  | spends (unspent : ¬ Spent (version + 1) (s.rowsOf runId))
      (spent : Spent (version + 1) (t.rowsOf runId))
  | checks (only : op.checksOnly = true) (checked : Checked runId version s t)
  | cancels (state failure) (background : op = .failBackgroundExecution runId state version failure)
      (run) (found : getPipelineRun s runId = some run) (cancelling : run.state = .cancelling)
      (moved : Moved codec runId run.stateVersion .completeCancellation s t)

theorem Outcome.of_moved {codec runId version op m}
    (h : Moved codec runId version m s t) : Outcome codec runId version op s t :=
  .spends h.spends.1 h.spends.2

theorem unspent_of_current {runId version} {s : Store} {run} (found : getPipelineRun s runId = some run)
    (current : run.stateVersion = version) (live : run.state ≠ .cancelled) :
    ¬ Spent (version + 1) (s.rowsOf runId) := by
  rintro ⟨run', row, passed | cancelled⟩
  · obtain rfl := Option.some.inj (found.symm.trans row)
    omega
  · obtain rfl := Option.some.inj (found.symm.trans row)
    exact live cancelled

theorem createRetryRun_checked (codec : Codec) {amb source version retryRun} {result}
    (h : createRetryRun amb source version retryRun s = .ok (result, t)) :
    Checked source version s t := by
  have creation : Creation codec retryRun s t := createRetryRun_ok h
  simp only [createRetryRun, validateRetrySource, peel_ok, okOrElse_eq_ok, refuseIf_eq_ok,
    exists_and_left, exists_const, not_not, ne_eq] at h
  obtain ⟨_, ⟨run, found, failed, current, -⟩, -⟩ := h
  have other : source ≠ retryRun.runId := by
    rintro rfl
    cases creation.absent.symm.trans found
  have same := creation.frame source other
  refine ⟨unspent_of_current found current ?_, congrArg RunRows.row same,
    congrArg RunRows.events same⟩
  rw [failed]
  nofun

theorem recordVerificationAttempt_checked {codec runId version ordinal verified}
    (h : recordVerificationAttempt codec runId version ordinal verified s = .ok ((), t)) :
    Checked runId version s t := by
  obtain ⟨⟨run, found, current⟩, oneStep⟩ := recordVerificationAttempt_ok h
  have step := oneStep.step
  generalize after : t.rowsOf runId = w at step
  cases step with
  | @attempt run' ordinal row present state absent synthesized =>
      obtain rfl := Option.some.inj (found.symm.trans present)
      refine ⟨unspent_of_current found current ?_, by rw [after]; rfl, by rw [after]; rfl⟩
      rw [state]
      nofun

theorem checked_of_expects {codec amb runId version} {op : Operation}
    (only : op.checksOnly = true) (expects : op.Expects runId version)
    (h : op.body codec amb s = .ok ((), t)) : Checked runId version s t := by
  cases op with
  | recordVerificationAttempt r v ordinal verified =>
      obtain ⟨rfl, rfl⟩ := expects
      exact recordVerificationAttempt_checked h
  | createRetryRun source v retryRun =>
      obtain ⟨rfl, rfl⟩ := expects
      obtain ⟨_, h⟩ := discardResult_ok.mp h
      exact createRetryRun_checked codec h
  | _ => cases only

theorem outcome_of_expects {codec amb runId version} {op : Operation}
    (expects : op.Expects runId version) (h : op.body codec amb s = .ok ((), t)) :
    Outcome codec runId version op s t := by
  cases op with
  | recordVerificationAttempt | createRetryRun =>
      exact .checks rfl (checked_of_expects rfl expects h)
  | failBackgroundExecution r state v failure =>
      obtain ⟨rfl, rfl⟩ := expects
      obtain ⟨_, h⟩ := discardResult_ok.mp h
      obtain ⟨run, found, ⟨cancelling, moved⟩ | ⟨-, moved⟩⟩ := failBackgroundExecution_ok codec h
      · exact .cancels state failure rfl run found cancelling moved
      · exact .of_moved moved
  | reconcileInterruptedRunsInTransaction interrupted =>
      obtain ⟨_, h⟩ := discardResult_ok.mp h
      obtain ⟨unspent, spent⟩ := reconcile_spends codec h expects
      exact .spends unspent spent
  | requestCancellation r v =>
      obtain ⟨rfl, rfl⟩ := expects
      obtain ⟨_, h⟩ := discardResult_ok.mp h
      obtain ⟨source, moved⟩ := requestCancellation_ok codec h
      exact .of_moved moved
  | startParsing | startNormalizing | startStructuring | startChunking | startAnalysis
  | startSynthesis | startVerification | completeParsing | completeNormalization
  | completeStructuring | completeChunking | completeAnalysis | completeSynthesis
  | completeVerification | completeSummary | failParsing | failNormalization | failStructuring
  | failChunking | failAnalysis | failSynthesis | failVerification | failSummary
  | completeCancellation =>
      obtain ⟨rfl, rfl⟩ := expects
      exact .of_moved (body_moves rfl h)
  | persistIngestion | persistCorrectedDocument | ensureRunModelProfile | ensureRunSummaryProfile
  | reconcileInterruptedRuns | prepareOcrHandoff | transitionOcrHandoff | storeOcrOutputs
  | failOcrHandoff | admitOcrChild | markOcrHandoffCompletedForChild | rewindInterruptedOcrChild
  | getOrCreateProfileSuggestionOwner => cases expects

/-! ## A cancelling run -/

/-- The rows of a run on its way to `Cancelled`, holding what `held` holds. -/
structure Cancelling (held v : RunRows) : Prop where
  row : ∃ run, v.row = some run ∧ (run.state = .cancelling ∨ run.state = .cancelled)
  artifacts : v.artifacts = held.artifacts
  synthesisAttempts : v.synthesisAttempts = held.synthesisAttempts
  verificationAttempts : v.verificationAttempts = held.verificationAttempts

/-- The one step left to such a run. -/
theorem Cancelling.step {codec runId held v label w} (h : Cancelling held v)
    (step : Step codec runId v label w) :
    label = .move .completeCancellation ∧ Cancelling held w := by
  obtain ⟨⟨run, row, at_⟩, artifacts, syntheses, verifications⟩ := h
  cases step with
  | create absent => cases absent.symm.trans row
  | @move run' m stage reason now eventId row' key state edge room permitted =>
      obtain rfl := Option.some.inj (row'.symm.trans row)
      have live : m.source = .cancelling := by
        rcases at_ with cancelling | cancelled
        · exact state.symm.trans cancelling
        · rw [← state, cancelled, StateMachine.terminal_has_no_edge rfl] at edge
          cases edge
      cases m with
      | completeCancellation =>
          exact ⟨rfl, ⟨_, rfl, .inr rfl⟩, artifacts, syntheses, verifications⟩
      | start stage | rewind stage => cases stage <;> cases live
      | complete kind => cases kind <;> cases live
      | ingest | finish => cases live
      | fail source | requestCancellation source =>
          obtain rfl : source = .cancelling := live
          cases permitted
  | attempt ordinal attempted present state =>
      obtain rfl := Option.some.inj (present.symm.trans row)
      rw [state] at at_
      rcases at_ with other | other <;> cases other
  | handOff present state =>
      obtain rfl := Option.some.inj (present.symm.trans row)
      rw [state] at at_
      rcases at_ with other | other <;> cases other

theorem Cancelling.along {codec runId held allowed v w} (h : Cancelling held v)
    (path : Relation.ReflTransGen (Next codec allowed runId) v w) :
    Cancelling held w ∧ (w = v ∨ allowed (.move .completeCancellation)) := by
  induction path with
  | refl => exact ⟨h, .inl rfl⟩
  | tail _ last ih =>
      obtain ⟨label, ok, step⟩ := last
      obtain ⟨rfl, after⟩ := ih.1.step step
      exact ⟨after, .inr ok⟩

theorem Cancelling.run {codec runId held calls}
    (run : (storeMachine codec).Run s calls t) (h : Cancelling held (s.rowsOf runId)) :
    Cancelling held (t.rowsOf runId) := by
  refine run.preserves (P := fun s => Cancelling held (s.rowsOf runId)) ?_ h
  rintro s call _ rfl hs
  exact (hs.along ((call_follows codec call s).path runId)).1

theorem completesCancellation_of_allows {op : Operation} {runId}
    (h : op.Allows runId (.move .completeCancellation)) : op.completesCancellation runId := by
  cases op with
  | completeCancellation | failBackgroundExecution => exact h.1.symm
  | reconcileInterruptedRuns => trivial
  | reconcileInterruptedRunsInTransaction =>
      obtain ⟨candidate, mem, key, -⟩ := h
      exact ⟨candidate, mem, key.symm⟩
  | persistIngestion | persistCorrectedDocument | createRetryRun =>
      obtain ⟨-, onboarding⟩ := h
      cases onboarding
  | admitOcrChild =>
      rcases h with ⟨-, onboarding⟩ | ⟨-, failure, other⟩
      · cases onboarding
      · cases other
  | requestCancellation | rewindInterruptedOcrChild =>
      obtain ⟨-, _, other⟩ := h
      cases other
  | ensureRunModelProfile | ensureRunSummaryProfile | transitionOcrHandoff | storeOcrOutputs
  | failOcrHandoff | markOcrHandoffCompletedForChild | getOrCreateProfileSuggestionOwner =>
      cases h
  | _ =>
      obtain ⟨-, other⟩ := h
      cases other

theorem requestCancellation_cancels {codec amb runId version} {s : Store}
    (ok : (Call.mk amb (.requestCancellation runId version)).result codec s = .ok ()) :
    Cancelling (s.rowsOf runId)
      (((Call.mk amb (.requestCancellation runId version)).after codec s).rowsOf runId) := by
  obtain ⟨_, h⟩ := discardResult_ok.mp (after_of_ok ok)
  obtain ⟨source, moved⟩ := requestCancellation_ok codec h
  obtain ⟨run, found, -⟩ := moved.version
  obtain ⟨-, -, -, -, run', found', cancelling, -⟩ := moved.landed found
  obtain ⟨artifacts, syntheses, verifications, -⟩ := moved.rows
  exact ⟨⟨run', found', .inl cancelling⟩, artifacts, syntheses, verifications⟩

/-! ## The law -/

/-- A version is spent by the first operation that expects it and moves the run; only a
background failure, which completes a cancellation whatever it expected, may succeed after. -/
theorem second_of_expected_version {codec : Codec} {first second : Call}
    {runId version calls} (expects : first.operation.Expects runId version)
    (moves : first.operation.checksOnly = false) (done : first.result codec s = .ok ())
    (between : (storeMachine codec).Run (first.after codec s) calls t)
    (expects' : second.operation.Expects runId version)
    (done' : second.result codec t = .ok ()) :
    ∃ state failure run,
      second.operation = .failBackgroundExecution runId state version failure ∧
      getPipelineRun t runId = some run ∧ run.state = .cancelling := by
  have spent : Spent (version + 1) ((first.after codec s).rowsOf runId) := by
    cases outcome_of_expects expects (after_of_ok done) with
    | spends unspent spent => exact spent
    | checks only =>
        rw [moves] at only
        cases only
    | cancels state failure background run found cancelling moved =>
        obtain ⟨-, -, -, -, run', found', cancelled, -⟩ := moved.landed found
        exact ⟨run', found', .inr cancelled⟩
  have still := run_spent between spent
  cases outcome_of_expects expects' (after_of_ok done') with
  | spends unspent => exact absurd still unspent
  | checks only checked => exact absurd still checked.unspent
  | cancels state failure background run found cancelling =>
      exact ⟨state, failure, run, background, found, cancelling⟩

/-- The optimistic concurrency of the store, over every interleaving of its callers. -/
theorem expected_version_is_spent_once (codec : Codec) :
    (∀ s, Reachable codec s → ∀ (first : Call) runId version,
      first.operation.Expects runId version → first.result codec s = .ok () →
      (first.operation.checksOnly = true →
        ((first.after codec s).rowsOf runId).row = (s.rowsOf runId).row ∧
          ((first.after codec s).rowsOf runId).events = (s.rowsOf runId).events) ∧
      (first.operation.checksOnly = false →
        ∀ calls t, (storeMachine codec).Run (first.after codec s) calls t → ∀ second : Call,
          second.operation.Expects runId version → second.result codec t = .ok () →
          ∃ state failure run,
            second.operation = .failBackgroundExecution runId state version failure ∧
            getPipelineRun t runId = some run ∧ run.state = .cancelling)) ∧
    (∀ s, Reachable codec s → ∀ (call : Call) e, call.result codec s = .error e →
      call.after codec s = s) ∧
    (∀ s, Reachable codec s → ∀ amb runId version,
      (Call.mk amb (.requestCancellation runId version)).result codec s = .ok () →
      ∀ calls t,
        (storeMachine codec).Run
          ((Call.mk amb (.requestCancellation runId version)).after codec s) calls t →
        (∃ run, getPipelineRun t runId = some run ∧
          (run.state = .cancelling ∨ run.state = .cancelled)) ∧
        (t.rowsOf runId).artifacts = (s.rowsOf runId).artifacts ∧
        (t.rowsOf runId).synthesisAttempts = (s.rowsOf runId).synthesisAttempts ∧
        (t.rowsOf runId).verificationAttempts = (s.rowsOf runId).verificationAttempts ∧
        ∀ call : Call, (call.after codec t).rowsOf runId ≠ t.rowsOf runId →
          call.operation.completesCancellation runId) := by
  refine ⟨fun s _ first runId version expects done => ⟨fun only => ?_, fun moves => ?_⟩,
    fun s _ call e => after_of_error, fun s _ amb runId version cancelled calls t run => ?_⟩
  · have checked := checked_of_expects only expects (after_of_ok done)
    exact ⟨checked.row, checked.events⟩
  · exact fun calls t between second => second_of_expected_version expects moves done between
  · have cancelling := (requestCancellation_cancels cancelled).run run
    refine ⟨cancelling.row, cancelling.artifacts, cancelling.synthesisAttempts,
      cancelling.verificationAttempts, fun call changed => ?_⟩
    obtain ⟨-, same | completes⟩ := cancelling.along ((call_follows codec call t).path runId)
    · exact absurd same changed
    · exact completesCancellation_of_allows completes

/-! ## A background failure that meets a cancellation -/

def cancellationCall : Call := ⟨sampleAmbient 2, .requestCancellation "root" 3⟩

def backgroundFailure : Call :=
  ⟨sampleAmbient 3, .failBackgroundExecution "root" .ingested 3
    ⟨"BACKGROUND_TASK_FAILED", "The background task failed.", some .parse, true⟩⟩

/-- Both callers read version `3`; both of their operations succeed. -/
theorem two_operations_spend_one_version :
    Reachable sampleCodec ingestedStore ∧
      cancellationCall.operation.Expects "root" 3 ∧
      backgroundFailure.operation.Expects "root" 3 ∧
      cancellationCall.result sampleCodec ingestedStore = .ok () ∧
      backgroundFailure.result sampleCodec (cancellationCall.after sampleCodec ingestedStore) =
        .ok () ∧
      (getPipelineRun (backgroundFailure.after sampleCodec
        (cancellationCall.after sampleCodec ingestedStore)) "root").map (·.state) =
          some .cancelled := by
  refine ⟨reachable_afterCalls _ _, ⟨rfl, rfl⟩, ⟨rfl, rfl⟩, ?_⟩
  decide +kernel

theorem background_failure_completes_cancellation :
    ∃ state failure run,
      backgroundFailure.operation = .failBackgroundExecution "root" state 3 failure ∧
      getPipelineRun (cancellationCall.after sampleCodec ingestedStore) "root" = some run ∧
      run.state = .cancelling :=
  ((expected_version_is_spent_once sampleCodec).1 ingestedStore (reachable_afterCalls _ _)
    cancellationCall "root" 3 ⟨rfl, rfl⟩ (by decide +kernel)).2 rfl [] _ .nil backgroundFailure
    ⟨rfl, rfl⟩ (by decide +kernel)

end DocumentSummarizer.Pipeline
