import DocumentSummarizer.Pipeline.Lifecycle

/-! # What each statement does to a run's rows

One inversion lemma for each insert and for `transitionInTx`, and the effect of
each write on `rowsOf`: it changes the rows of the run it names and no others.
-/

namespace DocumentSummarizer.Pipeline

open Library

/-- The store after a transition wrote the row and appended its event. -/
def Store.recordTransition (s : Store) (runId : String) (run : PipelineRun)
    (event : PipelineEvent) : Store :=
  { s.setRun runId run with pipelineEvents := s.pipelineEvents ++ [event] }

variable {s : Store}

theorem getPipelineRun_runId {runId run} (h : getPipelineRun s runId = some run) :
    run.runId = runId := by
  simp only [getPipelineRun, Option.map_eq_some_iff] at h
  obtain ⟨row, -, rfl⟩ := h
  rfl

theorem mem_pipelineRuns {runId run} (h : getPipelineRun s runId = some run) :
    runId ∈ s.pipelineRuns := by
  simp only [getPipelineRun, Option.map_eq_some_iff] at h
  obtain ⟨row, found, -⟩ := h
  exact AList.lookup_isSome.mp (Option.isSome_of_mem found)

theorem getPipelineRun_eq_none {runId} :
    getPipelineRun s runId = none ↔ runId ∉ s.pipelineRuns := by
  simp only [getPipelineRun, Option.map_eq_none_iff, AList.lookup_eq_none]

theorem getPipelineRun_setRun_self {runId run} (key : run.runId = runId) :
    getPipelineRun (s.setRun runId run) runId = some run := by
  subst key
  simp only [getPipelineRun, Store.setRun, AList.lookup_insert, Option.map_some]

theorem getPipelineRun_setRun_ne {runId other run} (h : other ≠ runId) :
    getPipelineRun (s.setRun runId run) other = getPipelineRun s other := by
  simp only [getPipelineRun, Store.setRun, AList.lookup_insert_ne h]

/-! ## Effects on the rows of a run -/

theorem rowsOf_setRun_self {runId run} (key : run.runId = runId) :
    (s.setRun runId run).rowsOf runId = { s.rowsOf runId with row := some run } := by
  simp only [Store.rowsOf, getPipelineRun_setRun_self key]
  rfl

theorem rowsOf_setRun_ne {runId other run} (h : other ≠ runId) :
    (s.setRun runId run).rowsOf other = s.rowsOf other := by
  simp only [Store.rowsOf, getPipelineRun_setRun_ne h]
  rfl

theorem rowsOf_appendEvent_self {event : PipelineEvent} {runId}
    (owner : event.runId = runId) :
    { s with pipelineEvents := s.pipelineEvents ++ [event] : Store }.rowsOf runId =
      { s.rowsOf runId with events := (s.rowsOf runId).events ++ [event] } := by
  have kept : [event].filter (fun e => decide (e.runId = runId)) = [event] := by
    simp only [List.filter_singleton, owner, decide_true, cond_true]
  simp only [Store.rowsOf, List.filter_append, kept]
  rfl

theorem rowsOf_appendEvent_ne {event : PipelineEvent} {runId other}
    (owner : event.runId = runId) (h : other ≠ runId) :
    { s with pipelineEvents := s.pipelineEvents ++ [event] : Store }.rowsOf other =
      s.rowsOf other := by
  have dropped : [event].filter (fun e => decide (e.runId = other)) = [] := by
    simp only [List.filter_singleton, owner, decide_eq_false (Ne.symm h), cond_false]
  simp only [Store.rowsOf, List.filter_append, dropped, List.append_nil]
  rfl

theorem rowsOf_recordTransition_self {runId run event} (key : run.runId = runId)
    (owner : event.runId = runId) :
    (s.recordTransition runId run event).rowsOf runId =
      { s.rowsOf runId with
        row := some run, events := (s.rowsOf runId).events ++ [event] } := by
  have appended := rowsOf_appendEvent_self (s := s.setRun runId run) owner
  rw [rowsOf_setRun_self key] at appended
  exact appended

theorem rowsOf_recordTransition_ne {s : Store} {runId other run event}
    (owner : event.runId = runId) (h : other ≠ runId) :
    (s.recordTransition runId run event).rowsOf other = s.rowsOf other := by
  have appended := rowsOf_appendEvent_ne (s := s.setRun runId run) owner h
  rw [rowsOf_setRun_ne h] at appended
  exact appended

theorem rowsOf_setArtifact_self {kind runId row} :
    (s.setArtifact kind runId row).rowsOf runId =
      (s.rowsOf runId).recordArtifact kind row := by
  simp only [Store.rowsOf, Store.setArtifact, RunRows.recordArtifact, RunRows.mk.injEq, true_and,
    and_true]
  refine ⟨rfl, ?_⟩
  funext other
  by_cases h : other = kind
  · subst h
    simp only [Function.update_self, AList.lookup_insert]
  · simp only [Function.update_of_ne h]

theorem rowsOf_setArtifact_ne {kind runId other row} (h : other ≠ runId) :
    (s.setArtifact kind runId row).rowsOf other = s.rowsOf other := by
  simp only [Store.rowsOf, Store.setArtifact, RunRows.mk.injEq, true_and, and_true]
  refine ⟨rfl, ?_⟩
  funext found
  by_cases hk : found = kind
  · subst hk
    simp only [Function.update_self, AList.lookup_insert_ne h]
  · simp only [Function.update_of_ne hk]

def Store.setSynthesisAttempt (s : Store) (runId : String) (ordinal : Nat)
    (row : ArtifactRow .synthesized) : Store :=
  { s with synthesisAttempts := s.synthesisAttempts.insert (runId, ordinal) row }

def Store.setVerificationAttempt (s : Store) (runId : String) (ordinal : Nat)
    (row : ArtifactRow .verified) : Store :=
  { s with verificationAttempts := s.verificationAttempts.insert (runId, ordinal) row }

theorem lookup_insert_attempt_self {β : Type} {table : AList (fun _ : String × Nat => β)}
    {runId : String} {ordinal : Nat} {row : β} :
    (fun other => (table.insert (runId, ordinal) row).lookup (runId, other)) =
      Function.update (fun other => table.lookup (runId, other)) ordinal (some row) := by
  funext other
  by_cases h : other = ordinal
  · subst h
    simp only [Function.update_self, AList.lookup_insert]
  · have pair : (runId, other) ≠ (runId, ordinal) := by
      intro same
      exact h (congrArg Prod.snd same)
    simp only [Function.update_of_ne h, AList.lookup_insert_ne pair]

theorem lookup_insert_attempt_ne {β : Type} {table : AList (fun _ : String × Nat => β)}
    {runId other : String} {ordinal : Nat} {row : β} (h : other ≠ runId) :
    (fun found => (table.insert (runId, ordinal) row).lookup (other, found)) =
      fun found => table.lookup (other, found) := by
  funext found
  have pair : (other, found) ≠ (runId, ordinal) := by
    intro same
    exact h (congrArg Prod.fst same)
  exact AList.lookup_insert_ne pair

theorem rowsOf_setSynthesisAttempt_self {runId ordinal row} :
    (s.setSynthesisAttempt runId ordinal row).rowsOf runId =
      (s.rowsOf runId).recordSynthesisAttempt ordinal row := by
  simp only [Store.rowsOf, Store.setSynthesisAttempt, RunRows.recordSynthesisAttempt,
    lookup_insert_attempt_self]
  rfl

theorem rowsOf_setSynthesisAttempt_ne {runId ordinal other row} (h : other ≠ runId) :
    (s.setSynthesisAttempt runId ordinal row).rowsOf other = s.rowsOf other := by
  simp only [Store.rowsOf, Store.setSynthesisAttempt, lookup_insert_attempt_ne h]
  rfl

theorem rowsOf_setVerificationAttempt_self {runId ordinal row} :
    (s.setVerificationAttempt runId ordinal row).rowsOf runId =
      (s.rowsOf runId).recordVerificationAttempt ordinal row := by
  simp only [Store.rowsOf, Store.setVerificationAttempt, RunRows.recordVerificationAttempt,
    lookup_insert_attempt_self]
  rfl

theorem rowsOf_setVerificationAttempt_ne {runId ordinal other row}
    (h : other ≠ runId) :
    (s.setVerificationAttempt runId ordinal row).rowsOf other = s.rowsOf other := by
  simp only [Store.rowsOf, Store.setVerificationAttempt, lookup_insert_attempt_ne h]
  rfl

/-! ## When a statement succeeds -/

theorem insertDocument_ok {s t : Store} {document} :
    insertDocument s document = .ok t ↔
      document.byteSize ≤ 9223372036854775807 ∧ document.documentId ∉ s.documents ∧
      { s with documents := s.documents.insert document.documentId document } = t := by
  simp only [insertDocument, peel_ok, refuseIf_eq_ok, return_ok, exists_const, Nat.not_lt]

theorem insertPipelineRun_ok {s t : Store} {run} :
    insertPipelineRun s run = .ok t ↔
      1 ≤ run.stateVersion ∧ run.runId ∉ s.pipelineRuns ∧ run.runId ∉ s.modelRequestOwners ∧
      run.documentId ∈ s.documents ∧
      { s.setRun run.runId run with
        modelRequestOwners := s.modelRequestOwners.insert run.runId .pipelineRun } = t := by
  simp only [insertPipelineRun, peel_ok, refuseIf_eq_ok, return_ok, exists_const, Nat.not_lt,
    not_not]

/-- No constraint of the event table refuses the event. -/
def Store.AdmitsEvent (s : Store) (event : PipelineEvent) : Prop :=
  (∀ e ∈ s.pipelineEvents, e.eventId ≠ event.eventId) ∧
    (∀ e ∈ s.pipelineEvents, e.runId = event.runId → e.sequenceNo ≠ event.sequenceNo) ∧
    event.runId ∈ s.pipelineRuns

theorem insertPipelineEvent_ok {s t : Store} {event} :
    insertPipelineEvent s event = .ok t ↔
      s.AdmitsEvent event ∧ { s with pipelineEvents := s.pipelineEvents ++ [event] } = t := by
  simp only [insertPipelineEvent, Store.AdmitsEvent, peel_ok, refuseIf_eq_ok, return_ok,
    exists_const, not_exists, not_and, not_not, and_assoc, ne_eq]

theorem insertArtifact_ok {codec : Codec} {s t : Store} {kind runId artifact} :
    insertArtifact codec s kind runId artifact = .ok t ↔
      runId ∉ s.artifacts kind ∧ runId ∈ s.pipelineRuns ∧
      kind.documentId artifact ∈ s.documents ∧
      s.setArtifact kind runId (.of codec kind artifact) = t := by
  simp only [insertArtifact, peel_ok, refuseIf_eq_ok, return_ok, exists_const, not_or, not_not,
    and_assoc]

theorem insertSynthesisAttempt_ok {codec : Codec} {s t : Store} {runId ordinal synthesized} :
    insertSynthesisAttempt codec s runId ordinal synthesized = .ok t ↔
      ordinal ≤ 1 ∧ (runId, ordinal) ∉ s.synthesisAttempts ∧ runId ∈ s.pipelineRuns ∧
      synthesized.documentId ∈ s.documents ∧
      s.setSynthesisAttempt runId ordinal (.of codec .synthesized synthesized) = t := by
  simp only [insertSynthesisAttempt, peel_ok, refuseIf_eq_ok, return_ok, exists_const, not_or,
    not_not, Nat.not_lt, and_assoc]
  rfl

theorem insertVerificationAttempt_ok {codec : Codec} {s t : Store} {runId ordinal verified} :
    insertVerificationAttempt codec s runId ordinal verified = .ok t ↔
      ordinal ≤ 1 ∧ (runId, ordinal) ∉ s.verificationAttempts ∧
      (runId, ordinal) ∈ s.synthesisAttempts ∧ verified.documentId ∈ s.documents ∧
      s.setVerificationAttempt runId ordinal (.of codec .verified verified) = t := by
  simp only [insertVerificationAttempt, peel_ok, refuseIf_eq_ok, return_ok, exists_const, not_or,
    not_not, Nat.not_lt, and_assoc]
  rfl

/-- The event a transition of `run` at its `reading`-th tick records. -/
def recordedEvent (amb : Ambient) (reading : Nat) (s : Store) (runId : String)
    (run : PipelineRun) (next : PipelineState) (stage : Option PipelineStage)
    (reason : Option String) : PipelineEvent :=
  StateMachine.transitionEvent run next
    (nextSequenceNo (s.pipelineEvents.filter (·.runId = runId))) stage reason
    (amb.now reading) (amb.newV4 reading)

def patchedRun (amb : Ambient) (reading : Nat) (run : PipelineRun) (next : PipelineState)
    (stage : Option PipelineStage) (patch : TransitionPatch) : PipelineRun :=
  patch.apply (StateMachine.advanced run next stage (amb.now reading))

theorem transitionInTx_ok {amb reading s runId expected version next stage reason patch}
    {result : PipelineRun} {t : Store} :
    transitionInTx amb reading s runId expected version next stage reason patch =
        .ok (result, t) ↔
      ∃ run, getPipelineRun s runId = some run ∧
        nextSequenceNo (s.pipelineEvents.filter (·.runId = runId)) ≤ u32Max ∧
        run.state = expected ∧ run.stateVersion = version ∧
        StateMachine.isValidTransition run.state next = true ∧ run.stateVersion + 1 ≤ u32Max ∧
        s.AdmitsEvent (recordedEvent amb reading s runId run next stage reason) ∧
        patchedRun amb reading run next stage patch = result ∧
        s.recordTransition runId result
          (recordedEvent amb reading s runId run next stage reason) = t := by
  constructor
  · intro h
    simp only [transitionInTx, peel_ok, okOrElse_eq_ok, refuseIf_eq_ok, return_ok, exists_const,
      mapError_ok_iff, Nat.not_lt] at h
    obtain ⟨run, found, sequence, ⟨moved, event⟩, transitioned, h⟩ := h
    obtain ⟨state, version', edge, room, made⟩ := StateMachine.transition_ok_iff.mp transitioned
    obtain ⟨rfl, rfl⟩ := Prod.mk.inj made
    simp only [updatePipelineRun, found, state, version', and_self, if_true, ne_eq,
      not_true_eq_false, not_false_eq_true, true_and] at h
    obtain ⟨stored, inserted, h⟩ := h
    obtain ⟨admits, rfl⟩ := insertPipelineEvent_ok.mp inserted
    obtain ⟨rfl, rfl⟩ := Prod.mk.inj h
    refine ⟨run, found, sequence, state, version', edge, room, ?_, rfl, rfl⟩
    refine ⟨admits.1, admits.2.1, ?_⟩
    have key : run.runId = runId := getPipelineRun_runId found
    simp only [recordedEvent, StateMachine.transitionEvent, key]
    exact mem_pipelineRuns found
  · rintro ⟨run, found, sequence, state, version', edge, room, admits, rfl, rfl⟩
    simp only [transitionInTx, peel_ok, okOrElse_eq_ok, refuseIf_eq_ok, return_ok, exists_const,
      mapError_ok_iff, Nat.not_lt]
    refine ⟨run, found, sequence, _, StateMachine.transition_ok_iff.mpr
      ⟨state, version', edge, room, rfl⟩, ?_⟩
    simp only [updatePipelineRun, found, state, version', and_self, if_true, ne_eq,
      not_true_eq_false, not_false_eq_true, true_and]
    refine ⟨_, insertPipelineEvent_ok.mpr ⟨⟨admits.1, admits.2.1, ?_⟩, rfl⟩, rfl⟩
    have key : run.runId = runId := getPipelineRun_runId found
    simp only [Store.setRun, StateMachine.transitionEvent, key]
    exact AList.mem_insert _ |>.mpr (.inl rfl)

theorem transitionInTx_runId {amb reading s runId expected version next stage reason patch}
    {result : PipelineRun} {t : Store}
    (h : transitionInTx amb reading s runId expected version next stage reason patch =
      .ok (result, t)) : result.runId = runId := by
  obtain ⟨run, found, -, -, -, -, -, -, rfl, -⟩ := transitionInTx_ok.mp h
  have key : run.runId = runId := getPipelineRun_runId found
  exact key

theorem documentsPresent_setRun {runId run} (key : run.runId = runId)
    (document : run.documentId ∈ s.documents) (h : DocumentsPresent s) :
    DocumentsPresent (s.setRun runId run) := by
  intro other found row
  by_cases same : other = runId
  · subst same
    rw [getPipelineRun_setRun_self key] at row
    obtain rfl := Option.some.inj row
    exact document
  · rw [getPipelineRun_setRun_ne same] at row
    exact h other found row

theorem transitionInTx_documents {amb reading s runId expected version next stage reason patch}
    {result : PipelineRun} {t : Store}
    (h : transitionInTx amb reading s runId expected version next stage reason patch =
      .ok (result, t)) (present : DocumentsPresent s) : DocumentsPresent t := by
  obtain ⟨run, found, -, -, -, -, -, -, rfl, rfl⟩ := transitionInTx_ok.mp h
  have key : (patchedRun amb reading run next stage patch).runId = runId :=
    (getPipelineRun_runId found : run.runId = runId)
  exact documentsPresent_setRun key (present runId run found) present

end DocumentSummarizer.Pipeline
