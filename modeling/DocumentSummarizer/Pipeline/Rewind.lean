import Mathlib.Data.Fintype.EquivFin
import DocumentSummarizer.Pipeline.Integrity

/-! # Replaying a rewound stage

A rewind takes an interrupted OCR child back to the checkpoint before its active
stage.  The stage can be replayed unless an attempt row, written in a
transaction of its own while the run was verifying, survived the interruption.
-/

namespace DocumentSummarizer.Pipeline

open Library

/-! ## Operations that succeed -/

/-- The identifiers the generator will return are those of no event so far. -/
def Ambient.FreshFor (amb : Ambient) (s : Store) : Prop :=
  ∀ n, ∀ e ∈ s.pipelineEvents, e.eventId ≠ amb.newV4 n

private theorem infinite_strings : Infinite String :=
  Infinite.of_injective String.ofList fun _ _ => String.ofList_inj.mp

theorem exists_freshFor (s : Store) : ∃ amb : Ambient, amb.FreshFor s := by
  have := infinite_strings
  obtain ⟨eventId, unused⟩ :=
    Infinite.exists_notMem_finset (s.pipelineEvents.map (·.eventId)).toFinset
  refine ⟨⟨fun _ => 0, fun _ => eventId⟩, fun _ e mem same => unused ?_⟩
  rw [List.mem_toFinset]
  exact List.mem_map.mpr ⟨e, mem, same⟩

/-- The rows a transition reads are those of a reachable run. -/
structure ReadyAt (s : Store) (runId : String) (run : PipelineRun) : Prop where
  found : getPipelineRun s runId = some run
  chain : EventChain (s.rowsOf runId).events run.state
  length : (s.rowsOf runId).events.length = run.stateVersion

theorem Reachable.readyAt {codec s} (h : Reachable codec s) {runId run}
    (found : getPipelineRun s runId = some run) : ReadyAt s runId run := by
  obtain ⟨chain, length⟩ := (h.chained runId).present run found
  exact ⟨found, chain, length⟩

theorem ReadyAt.transfers {s t : Store} {runId run} (h : ReadyAt s runId run)
    (runs : t.pipelineRuns = s.pipelineRuns) (events : t.pipelineEvents = s.pipelineEvents) :
    ReadyAt t runId run := by
  have found : getPipelineRun t runId = some run := by
    simp only [getPipelineRun, runs]
    exact h.found
  have same : (t.rowsOf runId).events = (s.rowsOf runId).events := by
    simp only [Store.rowsOf, events]
  exact ⟨found, same ▸ h.chain, same ▸ h.length⟩

/-- An admitted edge with room for the version and a new event id is taken. -/
theorem ReadyAt.transitionInTx_succeeds {amb s runId run next} (reading : Nat)
    (stage : Option PipelineStage) (reason : Option String) (patch : TransitionPatch)
    (h : ReadyAt s runId run)
    (fresh : ∀ e ∈ s.pipelineEvents, e.eventId ≠ amb.newV4 reading)
    (edge : StateMachine.isValidTransition run.state next = true)
    (room : run.stateVersion + 1 ≤ u32Max) :
    ∃ result t, transitionInTx amb reading s runId run.state run.stateVersion next stage reason
      patch = .ok (result, t) := by
  have key := getPipelineRun_runId h.found
  have number : nextSequenceNo (s.pipelineEvents.filter (·.runId = runId)) = run.stateVersion :=
    h.chain.nextSequenceNo_eq.trans h.length
  refine ⟨_, _, transitionInTx_ok.mpr ⟨run, h.found, ?_, rfl, rfl, edge, room, ?_, rfl, rfl⟩⟩
  · omega
  · refine ⟨fresh, fun e mem owner => ?_, ?_⟩
    · have mine : e ∈ (s.rowsOf runId).events :=
        List.mem_filter.mpr ⟨mem, decide_eq_true (owner.trans key)⟩
      obtain ⟨i, lt, rfl⟩ := List.getElem_of_mem mine
      rw [h.chain.sequenceNo_eq_index i _ (List.getElem?_eq_getElem lt)]
      simp only [recordedEvent, StateMachine.transitionEvent, number, ← h.length]
      exact Nat.ne_of_lt lt
    · simp only [recordedEvent, StateMachine.transitionEvent, key]
      exact mem_pipelineRuns h.found

theorem start_edge (stage : PipelineStage) :
    StateMachine.isValidTransition stage.checkpointBefore stage.active = true := by
  cases stage <;> decide

theorem checkpoint_edge (stage : PipelineStage) :
    StateMachine.isValidTransition stage.active stage.checkpoint = true := by
  cases stage <;> decide

variable {run : PipelineRun}

theorem startStage_succeeds {α : Type} {load : Store → String → Except StoreError α} {amb s runId}
    {stage : PipelineStage} (ready : ReadyAt s runId run)
    (at_ : run.state = stage.checkpointBefore) (fresh : amb.FreshFor s)
    (room : run.stateVersion + 1 ≤ u32Max) (loads : ∃ input, load s runId = .ok input) :
    ∃ result t, startStage load stage.checkpointBefore stage.active stage amb runId
      run.stateVersion s = .ok (result, t) := by
  obtain ⟨input, loaded⟩ := loads
  obtain ⟨moved, t, took⟩ := ready.transitionInTx_succeeds 0 (some stage) none {} (fresh 0)
    (at_ ▸ start_edge stage) room
  rw [at_] at took
  refine ⟨(moved, input), t, ?_⟩
  simp only [startStage, peel_ok, return_ok]
  exact ⟨input, loaded, (moved, t), took, rfl⟩

/-- The insert succeeds and writes only artifact and attempt tables. -/
def Inserts (insert : Store → Except StoreError Store) (s : Store) : Prop :=
  ∃ t, insert s = .ok t ∧ t.pipelineRuns = s.pipelineRuns ∧ t.pipelineEvents = s.pipelineEvents

theorem completeStage_succeeds {kind : ArtifactKind} {insert : Store → Except StoreError Store}
    {amb s runId} {run : PipelineRun} {stage : PipelineStage} {artifact : kind.Artifact} {warnings}
    (ready : ReadyAt s runId run) (at_ : run.state = stage.active) (fresh : amb.FreshFor s)
    (room : run.stateVersion + 1 ≤ u32Max)
    (matching : kind.documentId artifact = run.documentId) (inserts : Inserts insert s) :
    ∃ result t, completeStage kind insert stage.active stage.checkpoint stage amb runId
      run.stateVersion artifact warnings s = .ok (result, t) := by
  obtain ⟨u, inserted, runs, events⟩ := inserts
  have same : amb.FreshFor u := by
    intro n e mem
    rw [events] at mem
    exact fresh n e mem
  obtain ⟨moved, t, took⟩ := (ready.transfers runs events).transitionInTx_succeeds 0
    (some stage) none { warnings := some warnings } (same 0) (at_ ▸ checkpoint_edge stage) room
  rw [at_] at took
  refine ⟨moved, t, ?_⟩
  simp only [completeStage, ensureRunDocumentMatches, peel_ok, okOrElse_eq_ok, refuseIf_eq_ok,
    exists_and_left, exists_const, not_not, ne_eq]
  exact ⟨⟨run, ready.found, matching.symm⟩, u, inserted, took⟩

theorem inserts_artifact (codec : Codec) {s runId} {kind : ArtifactKind}
    {artifact : kind.Artifact} (found : getPipelineRun s runId = some run)
    (documents : DocumentsPresent s) (matching : kind.documentId artifact = run.documentId)
    (absent : (s.rowsOf runId).artifacts kind = none) :
    Inserts (insertArtifact codec · kind runId artifact) s := by
  refine ⟨_, insertArtifact_ok.mpr ⟨?_, mem_pipelineRuns found, ?_, rfl⟩, rfl, rfl⟩
  · exact AList.lookup_eq_none.mp absent
  · exact matching ▸ documents runId run found

theorem inserts_synthesis (codec : Codec) {s runId}
    {synthesized : SynthesizedDocument} (found : getPipelineRun s runId = some run)
    (documents : DocumentsPresent s) (matching : synthesized.documentId = run.documentId)
    (absent : (s.rowsOf runId).artifacts .synthesized = none)
    (unattempted : (s.rowsOf runId).synthesisAttempts 0 = none) :
    Inserts (insertSynthesisWithAttempt codec runId synthesized) s := by
  have stored := matching ▸ documents runId run found
  let row : ArtifactRow .synthesized := .of codec .synthesized synthesized
  refine ⟨(s.setArtifact .synthesized runId row).setSynthesisAttempt runId 0 row, ?_, rfl, rfl⟩
  simp only [insertSynthesisWithAttempt, insertSynthesizedDocument, peel_ok]
  exact ⟨_, insertArtifact_ok.mpr ⟨AList.lookup_eq_none.mp absent, mem_pipelineRuns found,
    stored, rfl⟩, insertSynthesisAttempt_ok.mpr ⟨Nat.zero_le 1,
      AList.lookup_eq_none.mp unattempted, mem_pipelineRuns found, stored, rfl⟩⟩

theorem inserts_verification (codec : Codec) {s runId}
    {verified : VerifiedDocument} (found : getPipelineRun s runId = some run)
    (documents : DocumentsPresent s) (matching : verified.documentId = run.documentId)
    (first : verified.synthesisAttemptOrdinal = 0)
    (absent : (s.rowsOf runId).artifacts .verified = none)
    (synthesized : (s.rowsOf runId).synthesisAttempts 0 ≠ none)
    (unattempted : (s.rowsOf runId).verificationAttempts 0 = none) :
    Inserts (insertVerificationWithAttempt codec runId 0 verified) s := by
  have stored := matching ▸ documents runId run found
  let row : ArtifactRow .verified := .of codec .verified verified
  refine ⟨(s.setVerificationAttempt runId 0 row).setArtifact .verified runId row, ?_, rfl, rfl⟩
  simp only [insertVerificationWithAttempt, ensureAttemptOrdinal, insertVerifiedDocument, peel_ok,
    refuseIf_eq_ok, exists_const, not_not, ne_eq]
  exact ⟨first.symm, _, insertVerificationAttempt_ok.mpr ⟨Nat.zero_le 1,
      AList.lookup_eq_none.mp unattempted, mem_synthesisAttempts.mpr synthesized, stored, rfl⟩,
    insertArtifact_ok.mpr ⟨AList.lookup_eq_none.mp absent, mem_pipelineRuns found, stored, rfl⟩⟩

/-! ## Replay -/

/-- A start of the stage at `version` and its completion at the next, with an artifact of
the run's document. -/
inductive Replay (documentId runId : String) (version : Nat) :
    PipelineStage → Operation → Operation → Prop where
  | parse {parsed warnings} (matching : parsed.documentId = documentId) :
      Replay documentId runId version .parse (.startParsing runId version)
        (.completeParsing runId (version + 1) parsed warnings)
  | normalize {normalized warnings} (matching : normalized.documentId = documentId) :
      Replay documentId runId version .normalize (.startNormalizing runId version)
        (.completeNormalization runId (version + 1) normalized warnings)
  | «structure» {structured warnings} (matching : structured.documentId = documentId) :
      Replay documentId runId version .structure (.startStructuring runId version)
        (.completeStructuring runId (version + 1) structured warnings)
  | chunk {chunked warnings} (matching : chunked.documentId = documentId) :
      Replay documentId runId version .chunk (.startChunking runId version)
        (.completeChunking runId (version + 1) chunked warnings)
  | analyze {analyzed warnings} (matching : analyzed.documentId = documentId) :
      Replay documentId runId version .analyze (.startAnalysis runId version)
        (.completeAnalysis runId (version + 1) analyzed warnings)
  | synthesize {synthesized warnings} (matching : synthesized.documentId = documentId) :
      Replay documentId runId version .synthesize (.startSynthesis runId version)
        (.completeSynthesis runId (version + 1) synthesized warnings)
  | verify {verified warnings} (matching : verified.documentId = documentId)
      (first : verified.synthesisAttemptOrdinal = 0) :
      Replay documentId runId version .verify (.startVerification runId version)
        (.completeVerification runId (version + 1) 0 verified warnings)

/-- Nothing is stored where completing the stage will store something. -/
structure NoCompletionRows (v : RunRows) (stage : PipelineStage) : Prop where
  artifacts : ∀ kind, Move.producer kind = some stage → v.artifacts kind = none
  synthesisAttempts : stage = .synthesize → ∀ ordinal, v.synthesisAttempts ordinal = none
  verificationAttempts : stage = .verify → ∀ ordinal, v.verificationAttempts ordinal = none

/-- Every replay succeeds, whatever new event ids its two calls are given. -/
def ReplaysToCompletion (codec : Codec) (s : Store) (documentId runId : String) (version : Nat)
    (stage : PipelineStage) : Prop :=
  ∀ start complete, Replay documentId runId version stage start complete →
    ∀ amb : Ambient, amb.FreshFor s →
      (Call.mk amb start).result codec s = .ok () ∧
      ∀ later : Ambient, later.FreshFor ((Call.mk amb start).after codec s) →
        (Call.mk later complete).result codec ((Call.mk amb start).after codec s) = .ok ()

theorem exists_replay (documentId runId : String) (version : Nat) {stage : PipelineStage}
    (later : stage ≠ .ingest) :
    ∃ start complete, Replay documentId runId version stage start complete := by
  cases stage with
  | ingest => exact absurd rfl later
  | parse =>
      let parsed : ParsedDocument := ⟨documentId, "", "", .nativeText, [], []⟩
      exact ⟨_, _, @Replay.parse documentId runId version parsed [] rfl⟩
  | normalize =>
      let normalized : NormalizedDocument := ⟨documentId, "", [], []⟩
      exact ⟨_, _, @Replay.normalize documentId runId version normalized [] rfl⟩
  | «structure» =>
      let structured : StructuredDocument := ⟨documentId, "", [], [], []⟩
      exact ⟨_, _, @Replay.structure documentId runId version structured [] rfl⟩
  | chunk =>
      let chunked : ChunkedDocument := ⟨documentId, "", [], []⟩
      exact ⟨_, _, @Replay.chunk documentId runId version chunked [] rfl⟩
  | analyze =>
      let analyzed : AnalyzedDocument := ⟨documentId, "", "", "", [], [], [], []⟩
      exact ⟨_, _, @Replay.analyze documentId runId version analyzed [] rfl⟩
  | synthesize =>
      let synthesized : SynthesizedDocument :=
        ⟨none, documentId, "", "", "", .coherent, "", [], [], [], [], []⟩
      exact ⟨_, _, @Replay.synthesize documentId runId version synthesized [] rfl⟩
  | verify =>
      let verified : VerifiedDocument :=
        ⟨none, documentId, "", 0, "", "", .coherent, "", [], [], [], [], [], [], [], []⟩
      exact ⟨_, _, @Replay.verify documentId runId version verified [] rfl rfl⟩

namespace Replay

variable {codec : Codec} {documentId runId : String} {version : Nat} {stage : PipelineStage}
  {start complete : Operation}

section

variable (replay : Replay documentId runId version stage start complete)

include replay

theorem start_moves
    {amb : Ambient} {s : Store} (ok : (Call.mk amb start).result codec s = .ok ()) :
    Moved codec runId version (.start stage) s ((Call.mk amb start).after codec s) := by
  cases replay <;> exact body_moves rfl (after_of_ok ok)

theorem complete_moves
    {amb : Ambient} {s : Store} (ok : (Call.mk amb complete).result codec s = .ok ()) :
    ∃ m, Moved codec runId (version + 1) m s ((Call.mk amb complete).after codec s) := by
  cases replay <;> exact ⟨_, body_moves rfl (after_of_ok ok)⟩

/-- At the checkpoint before the stage its input is stored, so its start succeeds. -/
theorem start_succeeds
    {s : Store} (reach : Reachable codec s) {run : PipelineRun}
    (found : getPipelineRun s runId = some run) (at_ : run.state = stage.checkpointBefore)
    (current : run.stateVersion = version) (room : version + 1 ≤ u32Max)
    (unclaimed : stage = .normalize → (s.rowsOf runId).handedOff = false)
    {amb : Ambient} (fresh : amb.FreshFor s) :
    (Call.mk amb start).result codec s = .ok () := by
  subst current
  obtain ⟨n, admits, exactly⟩ := (reach.workRecorded runId).present run found
  rw [at_] at admits
  have ready := reach.readyAt found
  have input := fun (kind : ArtifactKind) (later : kind ≠ .parsed) (stored : kind.rank ≤ n) =>
    reach.getArtifact_succeeds found later ((exactly kind).mpr stored)
  suffices ok : ∃ t, start.body codec amb s = .ok ((), t) by
    obtain ⟨t, done⟩ := ok
    exact (result_of_ok done).1
  cases replay with
  | parse =>
      have loads : ∃ document, loadRunDocument s runId = .ok document := by
        obtain ⟨document, stored⟩ := Option.isSome_iff_exists.mp
          (AList.lookup_isSome.mpr (reach.documentsPresent runId run found))
        simp only [loadRunDocument, getDocument, peel_ok, okOrElse_eq_ok]
        exact ⟨document, run, found, stored⟩
      have started := startStage_succeeds ready at_ fresh room loads
      exact discardResult_succeeds started
  | normalize =>
      obtain rfl : n = 1 := admits
      have loads : ∃ parsed, loadParsedUnlessHandedOff s runId = .ok parsed := by
        obtain ⟨row, stored⟩ := Option.ne_none_iff_exists'.mp ((exactly .parsed).mpr (by decide))
        simp only [loadParsedUnlessHandedOff, getParsedDocument, peel_ok, okOrElse_eq_ok,
          refuseIf_eq_ok, exists_const, Bool.not_eq_true]
        exact ⟨row.artifact, unclaimed rfl, Option.map_eq_some_iff.mpr ⟨row, stored, rfl⟩⟩
      have started := startStage_succeeds ready at_ fresh room loads
      exact discardResult_succeeds started
  | «structure» =>
      obtain rfl : n = 2 := admits
      have loads := input .normalized (by decide) (by decide)
      have started := startStage_succeeds ready at_ fresh room loads
      exact discardResult_succeeds started
  | chunk =>
      obtain rfl : n = 3 := admits
      have loads : ∃ both, loadNormalizedAndStructured codec s runId = .ok both := by
        obtain ⟨normalized, first⟩ := input .normalized (by decide) (by decide)
        obtain ⟨structured, second⟩ := input .structured (by decide) (by decide)
        simp only [loadNormalizedAndStructured, peel_ok, return_ok]
        exact ⟨_, normalized, first, structured, second, rfl⟩
      have started := startStage_succeeds ready at_ fresh room loads
      exact discardResult_succeeds started
  | analyze =>
      obtain rfl : n = 4 := admits
      have loads := input .chunked (by decide) (by decide)
      have started := startStage_succeeds ready at_ fresh room loads
      exact discardResult_succeeds started
  | synthesize =>
      obtain rfl : n = 5 := admits
      have loads := input .analyzed (by decide) (by decide)
      have started := startStage_succeeds ready at_ fresh room loads
      exact discardResult_succeeds started
  | verify =>
      obtain rfl : n = 6 := admits
      have loads := input .synthesized (by decide) (by decide)
      have started := startStage_succeeds ready at_ fresh room loads
      exact discardResult_succeeds started

/-- With nothing stored where it writes, the completion of an active stage succeeds. -/
theorem complete_succeeds
    {s : Store} (reach : Reachable codec s) {run : PipelineRun}
    (found : getPipelineRun s runId = some run) (at_ : run.state = stage.active)
    (current : run.stateVersion = version + 1) (owner : run.documentId = documentId)
    (room : version + 2 ≤ u32Max) (clear : NoCompletionRows (s.rowsOf runId) stage)
    {amb : Ambient} (fresh : amb.FreshFor s) :
    (Call.mk amb complete).result codec s = .ok () := by
  subst owner
  have ready := reach.readyAt found
  have documents := reach.documentsPresent
  have room' : run.stateVersion + 1 ≤ u32Max := by
    rw [current]
    exact room
  have plain : ∀ (kind : ArtifactKind) (artifact : kind.Artifact) (warnings),
      Move.producer kind = some stage → kind.documentId artifact = run.documentId →
      ∃ t, discardResult (completeStage kind (insertArtifact codec · kind runId artifact)
        stage.active stage.checkpoint stage amb runId run.stateVersion artifact warnings) s =
          .ok ((), t) := by
    intro kind artifact warnings made matching
    have inserts := inserts_artifact codec found documents matching
      (clear.artifacts kind made)
    exact discardResult_succeeds
      (completeStage_succeeds ready at_ fresh room' matching inserts)
  rw [current] at plain
  suffices ok : ∃ t, complete.body codec amb s = .ok ((), t) by
    obtain ⟨t, done⟩ := ok
    exact (result_of_ok done).1
  cases replay with
  | @parse parsed warnings matching => exact plain .parsed parsed warnings rfl matching
  | @normalize normalized warnings matching =>
      exact plain .normalized normalized warnings rfl matching
  | @«structure» structured warnings matching =>
      exact plain .structured structured warnings rfl matching
  | @chunk chunked warnings matching => exact plain .chunked chunked warnings rfl matching
  | @analyze analyzed warnings matching => exact plain .analyzed analyzed warnings rfl matching
  | @synthesize synthesized warnings matching =>
      have inserts := inserts_synthesis codec found documents matching
        (clear.artifacts .synthesized rfl) (clear.synthesisAttempts rfl 0)
      have completed := @completeStage_succeeds .synthesized _ amb s runId run .synthesize
        synthesized warnings ready at_ fresh room' matching inserts
      rw [current] at completed
      exact discardResult_succeeds completed
  | @verify verified warnings matching first =>
      obtain ⟨n, admits, exactly⟩ := (reach.workRecorded runId).present run found
      rw [at_] at admits
      obtain rfl : n = 6 := admits
      have synthesized := (reach.attemptsFollow runId).synthesized.mpr
        ((exactly .synthesized).mpr (by decide))
      have inserts := inserts_verification codec found documents matching first
        (clear.artifacts .verified rfl) synthesized (clear.verificationAttempts rfl 0)
      have completed := @completeStage_succeeds .verified _ amb s runId run .verify
        verified warnings ready at_ fresh room' matching inserts
      rw [current] at completed
      exact discardResult_succeeds completed

end

end Replay

/-! ## After a rewind -/

theorem rowsOf_verificationAttempts (s : Store) (runId : String) (ordinal : Nat) :
    (s.rowsOf runId).verificationAttempts ordinal =
      s.verificationAttempts.lookup (runId, ordinal) :=
  rfl

theorem rewindCheckpoint_active {stage : PipelineStage} (awake : stage.active ≠ .ingesting) :
    rewindCheckpoint stage.active ≠ none := by
  cases stage with
  | ingest => exact absurd rfl awake
  | _ => nofun

/-- A rewind of an active stage lands on the checkpoint before it, one version on. -/
theorem rewound_lands (codec : Codec) {s : Store} {amb : Ambient} {childRunId : String}
    {stage : PipelineStage} (found : getPipelineRun s childRunId = some run)
    (active : run.state = stage.active)
    (ok : (Call.mk amb (.rewindInterruptedOcrChild childRunId)).result codec s = .ok ()) :
    stage ≠ .ingest ∧ Moved codec childRunId run.stateVersion (.rewind stage) s
      ((Call.mk amb (.rewindInterruptedOcrChild childRunId)).after codec s) := by
  obtain ⟨result, rewound⟩ := discardResult_ok.mp (after_of_ok ok)
  have awake : run.state ≠ .ingesting := by
    simp only [rewindInterruptedOcrChild, peel_ok, okOrElse_eq_ok, refuseIf_eq_ok,
      exists_const] at rewound
    obtain ⟨-, owner, row, awake, -⟩ := rewound
    obtain rfl := Option.some.inj (found.symm.trans row)
    exact awake
  have stages : ∀ other : PipelineStage, run.state = other.active → other = stage := by
    intro other at_
    rw [active] at at_
    revert at_
    cases stage <;> cases other <;> decide
  rcases rewindInterruptedOcrChild_ok codec rewound with ⟨-, owner, row, rests⟩ |
    ⟨owner, other, row, at_, moved⟩
  · obtain rfl := Option.some.inj (found.symm.trans row)
    rw [active] at rests awake
    exact absurd rests (rewindCheckpoint_active awake)
  · obtain rfl := Option.some.inj (found.symm.trans row)
    obtain rfl := stages other at_
    exact ⟨(moved.landed found).2.2.2.1, moved⟩

theorem producer_rank {stage : PipelineStage} {n : Nat} (admits : stage.checkpointBefore.Admits n)
    {kind : ArtifactKind} (made : Move.producer kind = some stage) : kind.rank = n + 1 := by
  cases kind <;> cases made <;> obtain rfl := admits <;> rfl

/-- A run resting at a checkpoint has completion rows for no later stage, unless a
verification attempt was recorded. -/
theorem Reachable.noCompletionRows {codec s} (reach : Reachable codec s) {runId run}
    (found : getPipelineRun s runId = some run) {stage : PipelineStage}
    (at_ : run.state = stage.checkpointBefore)
    (unverified : stage = .verify → (s.rowsOf runId).verificationAttempts 0 = none) :
    NoCompletionRows (s.rowsOf runId) stage := by
  obtain ⟨n, admits, exactly⟩ := (reach.workRecorded runId).present run found
  rw [at_] at admits
  have follow := reach.attemptsFollow runId
  have missing : ∀ kind, Move.producer kind = some stage →
      (s.rowsOf runId).artifacts kind = none := by
    intro kind made
    by_contra held
    have := (exactly kind).mp held
    have := producer_rank admits made
    omega
  refine ⟨missing, ?_, ?_⟩
  · rintro rfl ordinal
    by_contra attempted
    obtain rfl := follow.first ordinal attempted
    exact follow.synthesized.mp attempted (missing .synthesized rfl)
  · rintro rfl ordinal
    by_contra attempted
    obtain rfl := follow.first ordinal (follow.verified ordinal attempted)
    exact attempted (unverified rfl)

/-- Every stage replays from the checkpoint before it when nothing is in its way. -/
theorem Reachable.replaysToCompletion {codec s} (reach : Reachable codec s) {runId run}
    (found : getPipelineRun s runId = some run) {stage : PipelineStage}
    (at_ : run.state = stage.checkpointBefore)
    (unclaimed : stage = .normalize → (s.rowsOf runId).handedOff = false)
    (clear : NoCompletionRows (s.rowsOf runId) stage) (room : run.stateVersion + 2 ≤ u32Max) :
    ReplaysToCompletion codec s run.documentId runId run.stateVersion stage := by
  intro start complete replay amb fresh
  have started := replay.start_succeeds reach found at_ rfl (Nat.le_of_succ_le room) unclaimed fresh
  refine ⟨started, fun later laterFresh => ?_⟩
  have moved := replay.start_moves started
  obtain ⟨-, -, -, -, run', found', active, version, owner⟩ := moved.landed found
  obtain ⟨artifacts, syntheses, verifications, -⟩ := moved.rows
  have clear' : NoCompletionRows
      (((Call.mk amb start).after codec s).rowsOf runId) stage :=
    ⟨fun kind made => artifacts ▸ clear.artifacts kind made,
      fun made => syntheses ▸ clear.synthesisAttempts made,
      fun made => verifications ▸ clear.verificationAttempts made⟩
  exact replay.complete_succeeds (reach.after _) found' active version owner room clear' laterFresh

/-- A rewound stage can be replayed to completion exactly when the interrupted
verification had recorded no attempt and the version leaves room for the replay. -/
theorem rewound_stage_replays_iff (codec : Codec) {s : Store} (reach : Reachable codec s)
    {amb : Ambient} {childRunId : String} {run : PipelineRun} {stage : PipelineStage}
    (found : getPipelineRun s childRunId = some run) (active : run.state = stage.active)
    (rewound : (Call.mk amb (.rewindInterruptedOcrChild childRunId)).result codec s = .ok ()) :
    let t := (Call.mk amb (.rewindInterruptedOcrChild childRunId)).after codec s
    (NoCompletionRows (t.rowsOf childRunId) stage ∧
        ReplaysToCompletion codec t run.documentId childRunId (run.stateVersion + 1) stage) ↔
      (stage = .verify → s.verificationAttempts.lookup (childRunId, 0) = none) ∧
        run.stateVersion + 3 ≤ u32Max := by
  intro t
  obtain ⟨later, moved⟩ := rewound_lands codec found active rewound
  have reach' : Reachable codec t := reach.after _
  obtain ⟨-, -, -, -, run', found', at_, version, owner⟩ := moved.landed found
  obtain ⟨-, -, verifications, handedOff⟩ := moved.rows
  have attempts : (t.rowsOf childRunId).verificationAttempts 0 =
      s.verificationAttempts.lookup (childRunId, 0) :=
    (congrFun verifications 0).trans (rowsOf_verificationAttempts s childRunId 0)
  rw [← owner, ← version]
  constructor
  · rintro ⟨clear, replays⟩
    refine ⟨fun verify => attempts ▸ clear.verificationAttempts verify 0, ?_⟩
    obtain ⟨start, complete, replay⟩ :=
      exists_replay run'.documentId childRunId run'.stateVersion later
    obtain ⟨amb₁, fresh₁⟩ := exists_freshFor t
    obtain ⟨-, completes⟩ := replays start complete replay amb₁ fresh₁
    obtain ⟨amb₂, fresh₂⟩ := exists_freshFor ((Call.mk amb₁ start).after codec t)
    obtain ⟨m, last⟩ := replay.complete_moves (completes amb₂ fresh₂)
    obtain ⟨owner', row', -⟩ := last.version
    obtain ⟨-, -, room, -⟩ := last.landed row'
    omega
  · rintro ⟨unverified, room⟩
    have clear := reach'.noCompletionRows found' at_ fun verify => attempts ▸ unverified verify
    refine ⟨clear, reach'.replaysToCompletion found' at_ (fun normalize => ?_) clear (by omega)⟩
    have resting := (reach.handedOffRests childRunId).rests run found
    rw [active, normalize] at resting
    rw [handedOff]
    show (s.rowsOf childRunId).handedOff = false
    by_contra claimed
    rcases resting (eq_true_of_ne_false claimed) with other | other | other | other <;> cases other

/-! ## An interrupted verification -/

def sampleHandoff : NewOcrHandoff where
  handoffId := "handoff"
  rootRunId := "root"
  rootDocumentId := "document"
  sourceArtifactId := "source"
  sourceBytes := [115, 99, 97, 110]
  sourceSha256 := sampleSha256Hex [115, 99, 97, 110]
  sourceDisplayName := "scan.pdf"
  providerAppId := "document-ocr"
  providerInstanceId := "provider"
  providerJobId := "job"
  providerRequestJson := "null"
  childDocumentId := "derived"
  childRunId := "child"
  derivedPath := "/derived/child.pdf"

def sampleOcrOutput : OcrOutput where
  providerStatusJson := "null"
  pdfArtifactId := "pdf"
  pdfSha256 := sampleSha256Hex [37, 80, 68, 70]
  pdfBytes := [37, 80, 68, 70]
  textArtifactId := "text"
  textSha256 := sampleSha256Hex [116, 101, 120, 116]
  textBytes := [116, 101, 120, 116]

def sampleDerivedDocument : IngestedDocument where
  documentId := "derived"
  originalFilename := "scan.pdf"
  fileType := "pdf"
  sourceType := .ocrText
  byteSize := 4
  contentHash := sampleSha256Hex [37, 80, 68, 70]
  localSourcePath := "/derived/child.pdf"
  createdAt := 1

/-- A root that OCR takes over, up to the admission of its child. -/
def admissionCalls : List Operation :=
  [sampleIngestion, .startParsing "root" 3,
    .completeParsing "root" 4
      ⟨"document", "pdf", "1", .nativeText, [⟨1, "", [], true⟩], []⟩ [],
    .prepareOcrHandoff sampleHandoff, .storeOcrOutputs "handoff" .prepared sampleOcrOutput,
    .admitOcrChild (preparedHandoff sampleCodec sampleHandoff) sampleDerivedDocument
      (prepareReceivedRun "child" "derived" 1)]

def sampleVerified : VerifiedDocument :=
  ⟨none, "derived", "1", 0, "runtime", "model", .legacyClaimList, "", [], [], [], [], [], [], [], []⟩

/-- The child's stages up to the start of its verification. -/
def verifyingCalls : List Operation :=
  [.startParsing "child" 3, .completeParsing "child" 4 ⟨"derived", "pdf", "1", .ocrText, [], []⟩ [],
    .startNormalizing "child" 5, .completeNormalization "child" 6 ⟨"derived", "1", [], []⟩ [],
    .startStructuring "child" 7, .completeStructuring "child" 8 ⟨"derived", "1", [], [], []⟩ [],
    .startChunking "child" 9, .completeChunking "child" 10 ⟨"derived", "1", [], []⟩ [],
    .startAnalysis "child" 11,
    .completeAnalysis "child" 12 ⟨"derived", "1", "runtime", "model", [], [], [], []⟩ [],
    .startSynthesis "child" 13,
    .completeSynthesis "child" 14
      ⟨none, "derived", "1", "runtime", "model", .legacyClaimList, "", [], [], [], [], []⟩ [],
    .startVerification "child" 15]

def verifyingStore : Store :=
  Store.empty.afterCalls sampleCodec (sampleCalls (admissionCalls ++ verifyingCalls))

/-- The store after a crash between the attempt's transaction and the next one. -/
def interruptedStore : Store :=
  Store.empty.afterCalls sampleCodec (sampleCalls
    (admissionCalls ++ verifyingCalls ++ [.recordVerificationAttempt "child" 16 0 sampleVerified]))

def rewindCall : Call := ⟨sampleAmbient 30, .rewindInterruptedOcrChild "child"⟩

def rewoundStore : Store := rewindCall.after sampleCodec interruptedStore

def replayStart : Call := ⟨⟨fun _ => 0, fun _ => "start"⟩, .startVerification "child" 17⟩

def replayComplete : Call :=
  ⟨⟨fun _ => 0, fun _ => "complete"⟩, .completeVerification "child" 18 0 sampleVerified []⟩

private theorem interrupted_attempt_survives :
    (getPipelineRun interruptedStore "child").map (fun run => (run.state, run.documentId)) =
        some (.verifying, "derived") ∧
      rewindCall.result sampleCodec interruptedStore = .ok () ∧
      (rewoundStore.verificationAttempts.lookup ("child", 0)).isSome = true ∧
      (∀ e ∈ rewoundStore.pipelineEvents, e.eventId ≠ "start") ∧
      replayStart.result sampleCodec rewoundStore = .ok () ∧
      (∀ e ∈ (replayStart.after sampleCodec rewoundStore).pipelineEvents,
        e.eventId ≠ "complete") ∧
      replayComplete.result sampleCodec (replayStart.after sampleCodec rewoundStore) =
        .error (.sqlite "summary_verification_attempts" .primaryKey) := by
  decide +kernel

/-- The attempt of the interrupted verification outlives the rewind and blocks the replay. -/
theorem interrupted_attempt_blocks_replay :
    Reachable sampleCodec interruptedStore ∧
      (∃ run, getPipelineRun interruptedStore "child" = some run ∧
        run.state = PipelineStage.verify.active) ∧
      rewindCall.result sampleCodec interruptedStore = .ok () ∧
      ¬ NoCompletionRows (rewoundStore.rowsOf "child") .verify ∧
      ¬ ReplaysToCompletion sampleCodec rewoundStore "derived" "child" 17 .verify := by
  obtain ⟨row, rewound, attempt, fresh, started, later, refused⟩ := interrupted_attempt_survives
  obtain ⟨run, found, facts⟩ := Option.map_eq_some_iff.mp row
  refine ⟨reachable_afterCalls _ _, ⟨run, found, congrArg Prod.fst facts⟩, rewound, ?_, ?_⟩
  · intro clear
    have missing := clear.verificationAttempts rfl 0
    rw [rowsOf_verificationAttempts] at missing
    exact Option.isSome_iff_ne_none.mp attempt missing
  · intro replays
    obtain ⟨-, completes⟩ := replays replayStart.operation replayComplete.operation
      (.verify rfl rfl) replayStart.ambient fun _ e mem => fresh e mem
    have done := completes replayComplete.ambient fun _ e mem => later e mem
    cases refused.symm.trans done

private theorem verifying_child :
    (getPipelineRun verifyingStore "child").map
        (fun run => (run.state, run.documentId, run.stateVersion)) =
        some (.verifying, "derived", 16) ∧
      rewindCall.result sampleCodec verifyingStore = .ok () ∧
      (verifyingStore.verificationAttempts.lookup ("child", 0)).isNone = true := by
  decide +kernel

theorem rewound_verification_replays :
    ReplaysToCompletion sampleCodec (rewindCall.after sampleCodec verifyingStore) "derived" "child"
      17 .verify := by
  obtain ⟨row, rewound, unattempted⟩ := verifying_child
  obtain ⟨run, found, facts⟩ := Option.map_eq_some_iff.mp row
  obtain ⟨active, owner, version⟩ : run.state = .verifying ∧ run.documentId = "derived" ∧
      run.stateVersion = 16 := by
    simpa only [Prod.mk.injEq] using facts
  have replays := (rewound_stage_replays_iff sampleCodec (reachable_afterCalls _ _) found
    (show run.state = PipelineStage.verify.active from active) rewound).mpr
    ⟨fun _ => Option.isNone_iff_eq_none.mp unattempted, by rw [version, u32Max]; omega⟩
  rw [owner, version] at replays
  exact replays.2

end DocumentSummarizer.Pipeline
