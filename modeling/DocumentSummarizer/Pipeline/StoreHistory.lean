import DocumentSummarizer.Pipeline.RetryLineages

/-! # The history of a store

The store only ever adds to a run: its events grow at their end, what was stored under a
key stays, a version names one row, and the rows of a run that has ended stay as they are.
-/

namespace DocumentSummarizer.Pipeline

open Library

/-! ## What one step adds -/

/-- The rows of a run, and the rows that later calls leave of it. -/
structure RunRows.Extends (v w : RunRows) : Prop where
  row : ∀ run, v.row = some run → ∃ run', w.row = some run' ∧ run'.documentId = run.documentId ∧
    run'.createdAt = run.createdAt ∧ run.stateVersion ≤ run'.stateVersion ∧
    (run.stateVersion = run'.stateVersion → run' = run)
  events : v.events <+: w.events
  artifacts : ∀ kind row, v.artifacts kind = some row → w.artifacts kind = some row
  syntheses : ∀ ordinal row, v.synthesisAttempts ordinal = some row →
    w.synthesisAttempts ordinal = some row
  verifications : ∀ ordinal row, v.verificationAttempts ordinal = some row →
    w.verificationAttempts ordinal = some row
  handedOff : v.handedOff = true → w.handedOff = true
  ended : ∀ run, v.row = some run → run.state.isTerminal = true → w = v

namespace RunRows.Extends

variable {u v w : RunRows}

theorem refl (v : RunRows) : v.Extends v where
  row run found := ⟨run, found, rfl, rfl, Nat.le_refl _, fun _ => rfl⟩
  events := List.prefix_refl _
  artifacts _ _ := id
  syntheses _ _ := id
  verifications _ _ := id
  handedOff := id
  ended _ _ _ := rfl

theorem trans (left : u.Extends v) (right : v.Extends w) : u.Extends w where
  row run found := by
    obtain ⟨run₁, found₁, document₁, created₁, version₁, same₁⟩ := left.row run found
    obtain ⟨run₂, found₂, document₂, created₂, version₂, same₂⟩ := right.row run₁ found₁
    refine ⟨run₂, found₂, document₂.trans document₁, created₂.trans created₁,
      version₁.trans version₂, fun same => ?_⟩
    have first := same₁ (by omega)
    have second := same₂ (by omega)
    exact second.trans first
  events := left.events.trans right.events
  artifacts kind row stored := right.artifacts kind row (left.artifacts kind row stored)
  syntheses ordinal row stored := right.syntheses ordinal row (left.syntheses ordinal row stored)
  verifications ordinal row stored :=
    right.verifications ordinal row (left.verifications ordinal row stored)
  handedOff handed := right.handedOff (left.handedOff handed)
  ended run found terminal := by
    obtain rfl := left.ended run found terminal
    exact right.ended run found terminal

end RunRows.Extends

theorem update_keeps {ι : Type} [DecidableEq ι] {β : ι → Type} {f : (i : ι) → Option (β i)}
    {key : ι} {new : β key} (absent : f key = none) (other : ι) (old : β other)
    (found : f other = some old) : Function.update f key (some new) other = some old := by
  by_cases same : other = key
  · subst same
    rw [absent] at found
    cases found
  · rw [Function.update_of_ne same]
    exact found

/-- What a move records beside the row is new. -/
structure RecordsNew (v w : RunRows) : Prop where
  row : w.row = v.row
  events : w.events = v.events
  artifacts : ∀ kind row, v.artifacts kind = some row → w.artifacts kind = some row
  syntheses : ∀ ordinal row, v.synthesisAttempts ordinal = some row →
    w.synthesisAttempts ordinal = some row
  verifications : ∀ ordinal row, v.verificationAttempts ordinal = some row →
    w.verificationAttempts ordinal = some row
  handedOff : w.handedOff = v.handedOff

theorem RecordsNew.refl (v : RunRows) : RecordsNew v v :=
  ⟨rfl, rfl, fun _ _ => id, fun _ _ => id, fun _ _ => id, rfl⟩

theorem recordsNew_artifact {v : RunRows} {kind : ArtifactKind} {row : ArtifactRow kind}
    (absent : v.artifacts kind = none) : RecordsNew v (v.recordArtifact kind row) :=
  ⟨rfl, rfl, update_keeps absent, fun _ _ => id, fun _ _ => id, rfl⟩

theorem Move.recordsNew {codec : Codec} {v : RunRows} {run : PipelineRun} {m : Move}
    (permitted : m.Permitted v run) : RecordsNew v (m.record codec v) := by
  cases m with
  | start | ingest | rewind | fail | requestCancellation | completeCancellation =>
      exact .refl v
  | finish summary citations =>
      obtain ⟨-, -, noSummary, noCitation⟩ := permitted
      refine ⟨rfl, rfl, fun kind row stored => ?_, fun _ _ => id, fun _ _ => id, rfl⟩
      have first := @update_keeps _ _ _ v.artifacts .summary (.of codec .summary summary)
        noSummary kind row stored
      have none : Function.update v.artifacts .summary (some (.of codec .summary summary))
          .citation = none := (Function.update_of_ne (by decide) _ _).trans noCitation
      exact update_keeps none kind row first
  | complete kind artifact warnings =>
      obtain ⟨-, -, absent, attempts⟩ := permitted
      cases kind with
      | synthesized =>
          exact ⟨rfl, rfl, update_keeps absent, update_keeps attempts, fun _ _ => id, rfl⟩
      | verified =>
          exact ⟨rfl, rfl, update_keeps absent, fun _ _ => id, update_keeps attempts.1, rfl⟩
      | parsed | normalized | structured | chunked | analyzed | summary | citation =>
          exact recordsNew_artifact absent

variable {codec : Codec}

theorem Step.extends {runId : String} {v w : RunRows} {label : Label}
    (step : Step codec runId v label w) : v.Extends w := by
  cases step with
  | create absent =>
      have none : ∀ run, v.row ≠ some run := by
        intro run found
        cases absent.symm.trans found
      exact ⟨fun run found => absurd found (none run), List.prefix_append _ _, fun _ _ => id,
        fun _ _ => id, fun _ _ => id, id, fun run found => absurd found (none run)⟩
  | @move run m stage reason now eventId row key state edge room permitted =>
      have new := @Move.recordsNew codec _ _ m permitted
      constructor
      · intro run' found
        obtain rfl := Option.some.inj (row.symm.trans found)
        refine ⟨_, rfl, rfl, rfl, Nat.le_succ _, fun same => ?_⟩
        exact absurd same (Nat.ne_of_lt (Nat.lt_succ_self _))
      · rw [← new.events]
        exact List.prefix_append _ _
      · exact new.artifacts
      · exact new.syntheses
      · exact new.verifications
      · intro handed
        exact new.handedOff.trans handed
      · intro run' found terminal
        obtain rfl := Option.some.inj (row.symm.trans found)
        rw [state, not_terminal_of_edge edge] at terminal
        cases terminal
  | @attempt run ordinal row present state absent synthesized =>
      refine ⟨fun run found => ⟨run, found, rfl, rfl, Nat.le_refl _, fun _ => rfl⟩,
        List.prefix_refl _, fun _ _ => id, fun _ _ => id, update_keeps absent, id, ?_⟩
      intro run' found terminal
      obtain rfl := Option.some.inj (present.symm.trans found)
      rw [state] at terminal
      cases terminal
  | @handOff run present state =>
      refine ⟨fun run found => ⟨run, found, rfl, rfl, Nat.le_refl _, fun _ => rfl⟩,
        List.prefix_refl _, fun _ _ => id, fun _ _ => id, fun _ _ => id, fun _ => rfl, ?_⟩
      intro run' found terminal
      obtain rfl := Option.some.inj (present.symm.trans found)
      rw [state] at terminal
      cases terminal

theorem extends_of_path {allowed : Label → Prop} {runId : String} {v w : RunRows}
    (path : Relation.ReflTransGen (Next codec allowed runId) v w) : v.Extends w := by
  induction path with
  | refl => exact .refl v
  | tail _ last ih =>
      obtain ⟨label, -, step⟩ := last
      exact ih.trans step.extends

/-! ## What a run of calls adds -/

/-- A store and one that later calls leave of it. -/
structure Store.Extends (s t : Store) : Prop where
  rows : ∀ runId, (s.rowsOf runId).Extends (t.rowsOf runId)
  documents : ∀ documentId document, getDocument s documentId = some document →
    getDocument t documentId = some document
  models : ∀ runId snapshot, getRunModelProfile s runId = some snapshot →
    getRunModelProfile t runId = some snapshot
  summaries : ∀ runId profile, getRunSummaryProfile s runId = some profile →
    getRunSummaryProfile t runId = some profile
  retries : ∀ retry lineage, s.pipelineRunRetries.lookup retry = some lineage →
    t.pipelineRunRetries.lookup retry = some lineage

namespace Store.Extends

theorem refl (s : Store) : s.Extends s :=
  ⟨fun _ => .refl _, fun _ _ => id, fun _ _ => id, fun _ _ => id, fun _ _ => id⟩

theorem trans {s t u : Store} (left : s.Extends t) (right : t.Extends u) : s.Extends u where
  rows runId := (left.rows runId).trans (right.rows runId)
  documents documentId document stored :=
    right.documents documentId document (left.documents documentId document stored)
  models runId snapshot stored := right.models runId snapshot (left.models runId snapshot stored)
  summaries runId profile stored :=
    right.summaries runId profile (left.summaries runId profile stored)
  retries retry lineage stored := right.retries retry lineage (left.retries retry lineage stored)

theorem retryOf {s t : Store} (grown : s.Extends t) (retry source : String)
    (linked : s.RetryOf retry source) : t.RetryOf retry source := by
  obtain ⟨lineage, found, same⟩ := linked
  exact ⟨lineage, grown.retries retry lineage found, same⟩

end Store.Extends

theorem call_extends (call : Call) {s : Store} (reach : Reachable codec s) :
    s.Extends (call.after codec s) := by
  have rows : ∀ runId, (s.rowsOf runId).Extends ((call.after codec s).rowsOf runId) :=
    fun runId => extends_of_path ((call_follows codec call s).path runId)
  cases outcome : call.result codec s with
  | error e =>
      rw [after_of_error outcome]
      exact .refl s
  | ok _ =>
      have done := after_of_ok outcome
      rcases body_retains done with ⟨source, version, run, retry⟩ | retains
      · rw [retry] at done
        obtain ⟨_, done⟩ := discardResult_ok.mp done
        have creation : Creation codec run s _ := createRetryRun_ok done
        have retried := createRetryRun_retried done
        obtain ⟨_, -, newModel, models⟩ := retried.models
        obtain ⟨_, -, newSummary, summaries⟩ := retried.summaries
        obtain ⟨_, -, inserted⟩ := retried.retries
        refine ⟨rows, fun documentId document stored => ?_, fun runId snapshot stored => ?_,
          fun runId profile stored => ?_, ?_⟩
        · rwa [getDocument, retried.documents]
        · rw [getRunModelProfile, models]
          exact lookup_insert_of_absent newModel stored
        · rw [getRunSummaryProfile, summaries]
          exact lookup_insert_of_absent newSummary stored
        · intro other lineage found
          obtain ⟨left, -, leftRow, -⟩ := reach.chains.document other _ ⟨lineage, found, rfl⟩
          have ne : other ≠ run.runId := by
            rintro rfl
            cases creation.absent.symm.trans leftRow
          rw [inserted, AList.lookup_insert_ne ne, found]
      · refine ⟨rows, retains.documents, retains.models, retains.summaries, fun retry lineage found => ?_⟩
        rw [retains.retries, found]

theorem run_extends {s t : Store} {calls : List Call} (reach : Reachable codec s)
    (run : (storeMachine codec).Run s calls t) : s.Extends t := by
  refine run.preserves_reachable (P := fun u => s.Extends u) ?_ reach (.refl s)
  rintro u call _ reach' rfl before
  exact before.trans (call_extends call reach')

/-- A store only adds to what it holds, whoever calls and in whatever order. -/
theorem store_history_grows {codec : Codec} {s t : Store} {calls : List Call}
    (reach : Reachable codec s) (run : (storeMachine codec).Run s calls t) :
    (∀ runId row, getPipelineRun s runId = some row →
      (∃ row', getPipelineRun t runId = some row' ∧ row'.documentId = row.documentId ∧
        row'.createdAt = row.createdAt ∧ row.stateVersion ≤ row'.stateVersion ∧
        (row.stateVersion = row'.stateVersion → row' = row)) ∧
      (row.state.isTerminal = true → t.rowsOf runId = s.rowsOf runId)) ∧
    (∀ runId, (s.rowsOf runId).events <+: (t.rowsOf runId).events) ∧
    (∀ runId (kind : ArtifactKind) stored, (s.artifacts kind).lookup runId = some stored →
      (t.artifacts kind).lookup runId = some stored) ∧
    (∀ key stored, s.synthesisAttempts.lookup key = some stored →
      t.synthesisAttempts.lookup key = some stored) ∧
    (∀ key stored, s.verificationAttempts.lookup key = some stored →
      t.verificationAttempts.lookup key = some stored) ∧
    (∀ runId snapshot, getRunModelProfile s runId = some snapshot →
      getRunModelProfile t runId = some snapshot) ∧
    (∀ runId profile, getRunSummaryProfile s runId = some profile →
      getRunSummaryProfile t runId = some profile) ∧
    (∀ retry lineage, s.pipelineRunRetries.lookup retry = some lineage →
      t.pipelineRunRetries.lookup retry = some lineage) ∧
    (∀ documentId document, getDocument s documentId = some document →
      getDocument t documentId = some document) := by
  have grown := run_extends reach run
  refine ⟨fun runId row found =>
      ⟨(grown.rows runId).row row found, (grown.rows runId).ended row found⟩,
    fun runId => (grown.rows runId).events, fun runId => (grown.rows runId).artifacts, ?_, ?_,
    grown.models, grown.summaries, grown.retries, grown.documents⟩
  · rintro ⟨runId, ordinal⟩ stored
    exact (grown.rows runId).syntheses ordinal stored
  · rintro ⟨runId, ordinal⟩ stored
    exact (grown.rows runId).verifications ordinal stored

/-- Normalizing and cancelling a parsed run keeps its text and the start of its chain. -/
theorem parsed_run_is_kept :
    ∃ row row' text,
      getPipelineRun (Store.empty.afterCalls sampleCodec (sampleCalls parsingCalls)) "root" =
        some row ∧
      getPipelineRun cancellingStore "root" = some row' ∧ row'.state = .cancelling ∧
      row'.documentId = row.documentId ∧ row.stateVersion ≤ row'.stateVersion ∧
      (cancellingStore.artifacts .parsed).lookup "root" = some text ∧
      ((Store.empty.afterCalls sampleCodec (sampleCalls parsingCalls)).rowsOf "root").events <+:
        (cancellingStore.rowsOf "root").events := by
  have stored : (getPipelineRun (Store.empty.afterCalls sampleCodec (sampleCalls parsingCalls))
        "root").isSome = true ∧
      (((Store.empty.afterCalls sampleCodec (sampleCalls parsingCalls)).artifacts .parsed).lookup
        "root").isSome = true ∧
      (getPipelineRun cancellingStore "root").map (·.state) = some .cancelling := by
    decide +kernel
  obtain ⟨row, found⟩ := Option.isSome_iff_exists.mp stored.1
  obtain ⟨text, parsed⟩ := Option.isSome_iff_exists.mp stored.2.1
  have moves : (storeMachine sampleCodec).Run
      (Store.empty.afterCalls sampleCodec (sampleCalls parsingCalls))
      ((sampleCalls (parsingCalls ++ normalizingCalls)).drop 3) cancellingStore :=
    run_afterCalls sampleCodec _ _
  obtain ⟨kept, events, artifacts, -⟩ := store_history_grows (reachable_afterCalls _ _) moves
  obtain ⟨⟨row', found', document, -, version, -⟩, -⟩ := kept "root" row found
  refine ⟨row, row', text, found, found', ?_, document, version,
    artifacts "root" .parsed text parsed, events "root"⟩
  have cancelling := stored.2.2
  rw [found'] at cancelling
  exact Option.some.inj cancelling

/-! ## The profile of a new run -/

theorem ensureRunSummaryProfile_recorded {s t : Store} {runId : String} {profile : SummaryProfile}
    (h : ensureRunSummaryProfile s runId profile = .ok t) :
    getRunSummaryProfile t runId = some profile := by
  simp only [ensureRunSummaryProfile] at h
  split at h
  · next persisted found =>
      split at h
      · next same =>
          obtain rfl := Except.ok.inj h
          rw [found, same]
      · cases h
  · split at h
    · obtain rfl := Except.ok.inj h
      exact AList.lookup_insert _
    · cases h

theorem persistIngestionInTransaction_profiled {amb : Ambient} {s t : Store}
    {document : IngestedDocument} {run result : PipelineRun} {profile : SummaryProfile}
    (h : persistIngestionInTransaction amb s document run profile = .ok (result, t)) :
    (run.documentId = document.documentId ∧ run.state = .received ∧ run.stateVersion = 1) ∧
      getRunSummaryProfile t result.runId = some profile := by
  simp only [persistIngestionInTransaction, peel_ok, refuseIf_eq_ok, return_ok, exists_const,
    not_or, not_not, ne_eq] at h
  obtain ⟨entering, u, -, ⟨ingested, w⟩, -, x, profiled, h⟩ := h
  obtain ⟨rfl, rfl⟩ := Prod.mk.inj h
  exact ⟨entering, ensureRunSummaryProfile_recorded profiled⟩

/-! ## Retried runs -/

/-- The run that is retried has failed. -/
def RetriedFailed (s : Store) : Prop :=
  ∀ retry source, s.RetryOf retry source →
    ∃ run, getPipelineRun s source = some run ∧ run.state = .failed

theorem call_retriedFailed (call : Call) {s : Store} (reach : Reachable codec s)
    (h : RetriedFailed s) : RetriedFailed (call.after codec s) := by
  have grown := call_extends call reach
  have stays : ∀ source run, getPipelineRun s source = some run → run.state = .failed →
      ∃ run', getPipelineRun (call.after codec s) source = some run' ∧ run'.state = .failed := by
    intro source run found failed
    have same := (grown.rows source).ended run found (by rw [failed]; rfl)
    exact ⟨run, (congrArg RunRows.row same).trans found, failed⟩
  cases outcome : call.result codec s with
  | error e =>
      rw [after_of_error outcome]
      exact h
  | ok _ =>
      have done := after_of_ok outcome
      intro retry origin linked
      rcases body_retains done with ⟨source, version, run, isRetry⟩ | retains
      · rw [isRetry] at done
        obtain ⟨_, done⟩ := discardResult_ok.mp done
        have retried := createRetryRun_retried done
        rcases retried.retryOf_cases linked with ⟨-, rfl⟩ | linked
        · obtain ⟨sourceRun, found, failed, -⟩ := retried.failed
          exact stays origin sourceRun found failed
        · obtain ⟨sourceRun, found, failed⟩ := h retry origin linked
          exact stays origin sourceRun found failed
      · simp only [Store.RetryOf, retains.retries] at linked
        obtain ⟨sourceRun, found, failed⟩ := h retry origin linked
        exact stays origin sourceRun found failed

theorem Reachable.retriedFailed {s : Store} (reach : Reachable codec s) :
    RetriedFailed s := by
  obtain ⟨_, calls, rfl, run⟩ := reach
  have start : Reachable codec Store.empty := ⟨Store.empty, [], rfl, .nil⟩
  refine run.preserves_reachable (P := RetriedFailed) ?_ start ?_
  · rintro u call _ reach' rfl failed
    exact call_retriedFailed call reach' failed
  · rintro retry source ⟨lineage, found, -⟩
    cases found

/-- The ancestors of a retry have failed, and no later call changes anything of them. -/
theorem retried_runs_are_closed {codec : Codec} {s t : Store} {calls : List Call}
    (reach : Reachable codec s) (run : (storeMachine codec).Run s calls t)
    {retry ancestor : String} (descends : Relation.TransGen s.RetryOf retry ancestor) :
    (∃ row, getPipelineRun s ancestor = some row ∧ row.state = .failed) ∧
      t.rowsOf ancestor = s.rowsOf ancestor ∧
      Relation.TransGen t.RetryOf retry ancestor := by
  have grown := run_extends reach run
  obtain ⟨row, found, failed⟩ : ∃ row, getPipelineRun s ancestor = some row ∧
      row.state = .failed := by
    cases descends with
    | single last => exact reach.retriedFailed _ _ last
    | tail _ last => exact reach.retriedFailed _ _ last
  exact ⟨⟨row, found, failed⟩, (grown.rows ancestor).ended row found (by rw [failed]; rfl),
    Relation.TransGen.mono grown.retryOf _ _ descends⟩

def lateCancellation : Call := ⟨sampleAmbient 31, .requestCancellation "root" 5⟩

theorem failed_run_stays_closed :
    (∃ row, getPipelineRun (retryCall.after sampleCodec failedStore) "root" = some row ∧
        row.state = .failed) ∧
      (lateCancellation.after sampleCodec (retryCall.after sampleCodec failedStore)).rowsOf
        "root" = (retryCall.after sampleCodec failedStore).rowsOf "root" := by
  have reach : Reachable sampleCodec failedStore := reachable_afterCalls _ _
  have created : retryCall.result sampleCodec failedStore = .ok () := by
    decide +kernel
  have done := after_of_ok created
  obtain ⟨_, done⟩ := discardResult_ok.mp done
  have linked := (createRetryRun_retried done).retryOf
  obtain ⟨failed, same, -⟩ := retried_runs_are_closed (reach.after retryCall)
    (run_afterCalls sampleCodec _ [lateCancellation]) (.single linked)
  exact ⟨failed, same⟩

end DocumentSummarizer.Pipeline
