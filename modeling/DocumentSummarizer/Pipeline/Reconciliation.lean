import DocumentSummarizer.Pipeline.Rewind

/-! # Restart reconciliation

What the batch over the interrupted runs does to the rows of each run, and that
a second batch finds nothing to do.
-/

namespace DocumentSummarizer.Pipeline

open Library

/-- A run that a restart finds in the middle of something. -/
def Interrupted (s : Store) (run : PipelineRun) : Prop :=
  run.state = .cancelling ∨
    run.state.activeStage.isSome = true ∧ isAdmittedOcrChild s run.runId = false

def interruptedRun (run : PipelineRun) (stage : PipelineStage) (now : DateTime) : PipelineRun :=
  { run with
    state := .failed
    stateVersion := run.stateVersion + 1
    updatedAt := now
    completedAt := some now
    currentStage := some stage
    failure := some (interruptionFailure stage) }

def cancelledRun (run : PipelineRun) (now : DateTime) : PipelineRun :=
  { run with
    state := .cancelled
    stateVersion := run.stateVersion + 1
    updatedAt := now
    completedAt := some now }

/-- What the batch makes of the rows of one run. -/
inductive Recovered (s : Store) (runId : String) (before after : RunRows) : Prop where
  | failed (run : PipelineRun) (stage : PipelineStage) (now : DateTime) (eventId : String)
      (row : before.row = some run) (active : run.state.activeStage = some stage)
      (free : isAdmittedOcrChild s runId = false)
      (landed : after = { before with
        row := some (interruptedRun run stage now)
        events := before.events ++ [⟨eventId, runId, nextSequenceNo before.events,
          some run.state, .failed, now, some stage, none, some interruptionFailureCode⟩] })
  | cancelled (run : PipelineRun) (now : DateTime) (eventId : String)
      (row : before.row = some run) (cancelling : run.state = .cancelling)
      (marked : run.cancellationRequested = true)
      (landed : after = { before with
        row := some (cancelledRun run now)
        events := before.events ++ [⟨eventId, runId, nextSequenceNo before.events,
          some .cancelling, .cancelled, now, none, none,
          some "cancellation_completed_after_restart"⟩] })
  | untouched (rest : ∀ run, before.row = some run → ¬ Interrupted s run) (same : after = before)

/-- Only run rows changed and events were only appended. -/
structure OnlyAppends (s t : Store) : Prop where
  tables : t = { s with pipelineRuns := t.pipelineRuns, pipelineEvents := t.pipelineEvents }
  events : ∃ appended, t.pipelineEvents = s.pipelineEvents ++ appended

theorem OnlyAppends.refl (s : Store) : OnlyAppends s s :=
  ⟨rfl, [], (List.append_nil _).symm⟩

theorem OnlyAppends.trans {s t u : Store} (left : OnlyAppends s t) (right : OnlyAppends t u) :
    OnlyAppends s u := by
  constructor
  · rw [right.tables, left.tables]
  · obtain ⟨first, front⟩ := left.events
    obtain ⟨second, back⟩ := right.events
    exact ⟨first ++ second, by rw [back, front, List.append_assoc]⟩

theorem OnlyAppends.handoffs {s t : Store} (h : OnlyAppends s t) (runId : String) :
    isAdmittedOcrChild t runId = isAdmittedOcrChild s runId := by
  rw [h.tables]
  rfl

/-- The whole batch, run by run. -/
structure Reconciled (s t : Store) : Prop where
  rows : ∀ runId, Recovered s runId (s.rowsOf runId) (t.rowsOf runId)
  rest : OnlyAppends s t

/-! ## The candidates -/

theorem mem_listPipelineRunsForRecovery {s : Store} {run : PipelineRun} :
    run ∈ listPipelineRunsForRecovery s ↔
      getPipelineRun s run.runId = some run ∧
        (run.state.activeStage.isSome = true ∨ run.state = .cancelling) := by
  have keyed : run ∈ s.pipelineRuns.entries.map (fun row => { row.2 with runId := row.1 }) ↔
      getPipelineRun s run.runId = some run := by
    simp only [List.mem_map, getPipelineRun, Option.map_eq_some_iff]
    constructor
    · rintro ⟨⟨key, row⟩, mem, rfl⟩
      exact ⟨row, AList.mem_lookup_iff.mpr mem, rfl⟩
    · rintro ⟨row, found, same⟩
      exact ⟨⟨run.runId, row⟩, AList.mem_lookup_iff.mp found, same⟩
  simp only [listPipelineRunsForRecovery, List.mem_mergeSort, List.mem_filter, keyed,
    Bool.or_eq_true, decide_eq_true_eq]

theorem listPipelineRunsForRecovery_nodup (s : Store) :
    ((listPipelineRunsForRecovery s).map (·.runId)).Nodup := by
  have sorted := (List.mergeSort_perm
    ((s.pipelineRuns.entries.map fun row => { row.2 with runId := row.1 }).filter fun run =>
      run.state.activeStage.isSome || run.state = .cancelling) (·.runId ≤ ·.runId)).map
        PipelineRun.runId
  refine sorted.nodup_iff.mpr ?_
  have keys : ((s.pipelineRuns.entries.map fun row => { row.2 with runId := row.1 }).map
      PipelineRun.runId) = s.pipelineRuns.keys := by
    rw [List.map_map]
    rfl
  exact (keys ▸ s.pipelineRuns.keys_nodup).sublist (List.filter_sublist.map _)

theorem interruptedCandidate_eq_none {s : Store} {run : PipelineRun} :
    interruptedCandidate s run = none ↔ ¬ Interrupted s run := by
  unfold interruptedCandidate Interrupted
  by_cases cancelling : run.state = .cancelling
  · simp [cancelling]
  · cases active : run.state.activeStage with
    | none => simp [cancelling]
    | some stage => simp [cancelling]

theorem interruptedCandidate_runId {s : Store} {run : PipelineRun} {candidate}
    (h : interruptedCandidate s run = some candidate) : candidate.runId = run.runId := by
  unfold interruptedCandidate at h
  split at h
  · cases h
    rfl
  · split at h
    · cases h
    · split at h
      · cases h
      · cases h
        rfl

/-! ## One run -/

theorem onlyAppends_of_transition {amb reading s runId expected version next stage reason patch}
    {result : PipelineRun} {t : Store}
    (h : transitionInTx amb reading s runId expected version next stage reason patch =
      .ok (result, t)) : OnlyAppends s t := by
  obtain ⟨run, -, -, -, -, -, -, -, -, rfl⟩ := transitionInTx_ok.mp h
  exact ⟨rfl, _, rfl⟩

theorem reconcileInterruptedRun_transition {amb reading candidate s t result}
    (h : reconcileInterruptedRun amb reading candidate s = .ok (result, t)) :
    ∃ expected next stage reason patch,
      transitionInTx amb reading s candidate.runId expected candidate.expectedVersion next stage
        reason patch = .ok (result, t) := by
  obtain ⟨runId, expected, version, action⟩ := candidate
  cases action with
  | fail failure =>
      simp only [reconcileInterruptedRun, peel_ok] at h
      obtain ⟨_, -, _, -, moved⟩ := h
      exact ⟨_, _, _, _, _, moved⟩
  | completeCancellation =>
      simp only [reconcileInterruptedRun, peel_ok] at h
      obtain ⟨_, -, _, -, _, -, moved⟩ := h
      exact ⟨_, _, _, _, _, moved⟩

theorem rowsOf_of_transition {amb reading s runId expected version next stage reason patch}
    {result : PipelineRun} {t : Store}
    (h : transitionInTx amb reading s runId expected version next stage reason patch =
      .ok (result, t)) :
    ∃ run, getPipelineRun s runId = some run ∧ run.state = expected ∧
      t.rowsOf runId = { s.rowsOf runId with
        row := some (patchedRun amb reading run next stage patch)
        events := (s.rowsOf runId).events ++
          [recordedEvent amb reading s runId run next stage reason] } ∧
      ∀ other, other ≠ runId → t.rowsOf other = s.rowsOf other := by
  obtain ⟨run, found, -, state, -, -, -, -, rfl, rfl⟩ := transitionInTx_ok.mp h
  have key : run.runId = runId := getPipelineRun_runId found
  refine ⟨run, found, state, ?_, ?_⟩
  · exact rowsOf_recordTransition_self key key
  · intro other different
    exact rowsOf_recordTransition_ne key different

/-- The candidate of a run, reconciled while the run is as it was listed. -/
theorem reconcileInterruptedRun_recovers {amb reading} {origin s t : Store} {run result}
    {candidate : InterruptedRunTransition}
    (made : interruptedCandidate origin run = some candidate)
    (row : getPipelineRun s run.runId = some run)
    (h : reconcileInterruptedRun amb reading candidate s = .ok (result, t)) :
    Recovered origin run.runId (s.rowsOf run.runId) (t.rowsOf run.runId) := by
  unfold interruptedCandidate at made
  split at made
  · next cancelling =>
      cases made
      simp only [reconcileInterruptedRun, peel_ok, okOrElse_eq_ok, refuseIf_eq_ok, cancelling,
        exists_const, not_not, ne_eq] at h
      obtain ⟨-, persisted, found, requested, moved⟩ := h
      obtain rfl := Option.some.inj (row.symm.trans found)
      obtain ⟨same, found', state, landed, -⟩ := rowsOf_of_transition moved
      obtain rfl := Option.some.inj (row.symm.trans found')
      have marked : run.cancellationRequested = true :=
        eq_true_of_ne_false fun unmarked => requested ⟨cancelling, rfl, unmarked⟩
      refine .cancelled run (amb.now reading) (amb.newV4 reading) row cancelling marked ?_
      rw [landed]
      simp [patchedRun, TransitionPatch.apply, StateMachine.advanced, cancelledRun, recordedEvent,
        StateMachine.transitionEvent, cancelling, marked, PipelineState.isTerminal, Store.rowsOf]
  · split at made
    · cases made
    · next stage active =>
        split at made
        · cases made
        · next free =>
            cases made
            simp only [reconcileInterruptedRun, peel_ok, okOrElse_eq_ok, refuseIf_eq_ok,
              exists_const, active, Option.some.injEq] at h
            obtain ⟨_, rfl, -, moved⟩ := h
            obtain ⟨same, found, state, landed, -⟩ := rowsOf_of_transition moved
            obtain rfl := Option.some.inj (row.symm.trans found)
            refine .failed run stage (amb.now reading) (amb.newV4 reading) row active
              (by simpa using free) ?_
            rw [landed]
            simp [patchedRun, TransitionPatch.apply, StateMachine.advanced, interruptedRun,
              recordedEvent, StateMachine.transitionEvent, PipelineState.isTerminal,
              interruptionFailure, Store.rowsOf]

/-! ## The batch -/

/-- The batch reconciles each of its runs once and leaves the others alone. -/
theorem reconcileInterruptedRunsInTransaction_rows {amb} {origin : Store}
    {runs : List PipelineRun} (distinct : (runs.map (·.runId)).Nodup) :
    ∀ {reading s t result}, (∀ run ∈ runs, getPipelineRun s run.runId = some run) →
      reconcileInterruptedRunsInTransaction amb reading
        (runs.filterMap (interruptedCandidate origin)) s = .ok (result, t) →
      OnlyAppends s t ∧
        (∀ run ∈ runs, Interrupted origin run →
          Recovered origin run.runId (s.rowsOf run.runId) (t.rowsOf run.runId)) ∧
        ∀ runId, (∀ run ∈ runs, run.runId = runId → ¬ Interrupted origin run) →
          t.rowsOf runId = s.rowsOf runId := by
  induction runs with
  | nil =>
      intro reading s t result _ h
      cases h
      exact ⟨.refl s, fun _ mem => absurd mem List.not_mem_nil, fun _ _ => rfl⟩
  | cons run rest ih =>
      intro reading s t result listed h
      rw [List.map_cons, List.nodup_cons] at distinct
      obtain ⟨new, distinct⟩ := distinct
      have apart : ∀ other ∈ rest, other.runId ≠ run.runId := by
        intro other mem same
        exact new (same ▸ List.mem_map_of_mem mem)
      cases made : interruptedCandidate origin run with
      | none =>
          have idle := interruptedCandidate_eq_none.mp made
          rw [List.filterMap_cons_none made] at h
          obtain ⟨appends, recovers, frame⟩ := ih distinct
            (fun other mem => listed other (List.mem_cons_of_mem _ mem)) h
          refine ⟨appends, ?_, ?_⟩
          · intro other mem interrupted
            rcases List.mem_cons.mp mem with rfl | later
            · exact absurd interrupted idle
            · exact recovers other later interrupted
          · intro runId none
            exact frame runId fun other mem => none other (List.mem_cons_of_mem _ mem)
      | some candidate =>
          rw [List.filterMap_cons_some made] at h
          simp only [reconcileInterruptedRunsInTransaction, peel_ok, return_ok] at h
          obtain ⟨⟨first, u⟩, here, ⟨runs, w⟩, there, h⟩ := h
          cases h
          have key := interruptedCandidate_runId made
          have own := reconcileInterruptedRun_recovers made (listed run List.mem_cons_self) here
          obtain ⟨_, _, _, _, _, moved⟩ := reconcileInterruptedRun_transition here
          obtain ⟨_, -, -, -, others⟩ := rowsOf_of_transition moved
          rw [key] at others
          have kept : ∀ other ∈ rest, getPipelineRun u other.runId = some other := by
            intro other mem
            have same := congrArg RunRows.row (others other.runId (apart other mem))
            exact same.trans (listed other (List.mem_cons_of_mem _ mem))
          obtain ⟨appends, recovers, frame⟩ := ih distinct kept there
          refine ⟨(onlyAppends_of_transition moved).trans appends, ?_, ?_⟩
          · intro other mem interrupted
            rcases List.mem_cons.mp mem with rfl | later
            · have later := frame other.runId fun third inside same =>
                absurd same (apart third inside)
              rw [later]
              exact own
            · have before := others other.runId (apart other later)
              rw [← before]
              exact recovers other later interrupted
          · intro runId none
            have different : runId ≠ run.runId := by
              intro same
              have interrupted : ¬ ¬ Interrupted origin run := by
                rw [← interruptedCandidate_eq_none, made]
                rintro ⟨⟩
              exact interrupted (none run List.mem_cons_self same.symm)
            rw [frame runId fun other mem => none other (List.mem_cons_of_mem _ mem)]
            exact others runId different

theorem reconcileInterruptedRuns_reconciles {amb} {s t : Store} {result}
    (h : reconcileInterruptedRuns amb s = .ok (result, t)) : Reconciled s t := by
  obtain ⟨appends, recovers, frame⟩ := reconcileInterruptedRunsInTransaction_rows
    (listPipelineRunsForRecovery_nodup s)
    (fun run mem => (mem_listPipelineRunsForRecovery.mp mem).1) h
  refine ⟨fun runId => ?_, appends⟩
  by_cases found : ∃ run, getPipelineRun s runId = some run ∧ Interrupted s run
  · obtain ⟨run, row, interrupted⟩ := found
    obtain rfl := getPipelineRun_runId row
    have listed : run ∈ listPipelineRunsForRecovery s := by
      refine mem_listPipelineRunsForRecovery.mpr ⟨row, ?_⟩
      rcases interrupted with cancelling | ⟨active, -⟩
      · exact .inr cancelling
      · exact .inl active
    exact recovers run listed interrupted
  · have idle : ∀ run, getPipelineRun s runId = some run → ¬ Interrupted s run := by
      intro run row interrupted
      exact found ⟨run, row, interrupted⟩
    refine .untouched idle (frame runId ?_)
    rintro run mem rfl
    exact idle run (mem_listPipelineRunsForRecovery.mp mem).1

/-- After the batch no run is interrupted. -/
theorem Reconciled.settled {s t : Store} (h : Reconciled s t) {run : PipelineRun}
    (row : getPipelineRun t run.runId = some run) : ¬ Interrupted t run := by
  have landed : (t.rowsOf run.runId).row = some run := row
  intro interrupted
  cases h.rows run.runId with
  | failed old stage now eventId before active free after =>
      rw [after] at landed
      cases landed
      rcases interrupted with cancelling | ⟨active, -⟩
      · cases cancelling
      · cases active
  | cancelled old now eventId before cancelling marked after =>
      rw [after] at landed
      cases landed
      rcases interrupted with cancelling | ⟨active, -⟩
      · cases cancelling
      · cases active
  | untouched idle same =>
      rw [same] at landed
      refine idle run landed ?_
      rcases interrupted with cancelling | ⟨active, free⟩
      · exact .inl cancelling
      · exact .inr ⟨active, h.rest.handoffs run.runId ▸ free⟩

theorem Reconciled.idle {s t : Store} (h : Reconciled s t) (amb : Ambient) :
    reconcileInterruptedRuns amb t = .ok ([], t) := by
  have none_left : (listPipelineRunsForRecovery t).filterMap (interruptedCandidate t) = [] := by
    apply List.filterMap_eq_nil_iff.mpr
    intro run mem
    apply interruptedCandidate_eq_none.mpr
    exact h.settled (mem_listPipelineRunsForRecovery.mp mem).1
  rw [reconcileInterruptedRuns, none_left]
  rfl

/-- The batch changes nothing, or every interrupted run is failed or cancelled once and every
other row stays as it was; a batch after it finds nothing to do. -/
theorem reconciliation_exact (amb : Ambient) (s : Store) :
    (∃ e, transaction (reconcileInterruptedRuns amb) s = (.error e, s)) ∨
      ∃ recovered t, transaction (reconcileInterruptedRuns amb) s = (.ok recovered, t) ∧
        Reconciled s t ∧
        ∀ later, transaction (reconcileInterruptedRuns later) t = (.ok [], t) := by
  cases batch : reconcileInterruptedRuns amb s with
  | error e =>
      refine .inl ⟨e, ?_⟩
      simp only [transaction, batch]
  | ok result =>
      obtain ⟨recovered, t⟩ := result
      have reconciled := reconcileInterruptedRuns_reconciles batch
      refine .inr ⟨recovered, t, transaction_of_ok batch, reconciled, ?_⟩
      intro later
      exact transaction_of_ok (reconciled.idle later)

/-! ## When the batch commits -/

/-- A run that the batch can settle once. -/
structure Recoverable (s : Store) (run : PipelineRun) : Prop where
  ready : ReadyAt s run.runId run
  marked : run.state = .cancelling → run.cancellationRequested = true
  room : run.stateVersion + 1 ≤ u32Max

theorem Recoverable.of_rows {s t : Store} {run : PipelineRun} (h : Recoverable s run)
    (same : t.rowsOf run.runId = s.rowsOf run.runId) : Recoverable t run := by
  have found : getPipelineRun t run.runId = some run :=
    (congrArg RunRows.row same).trans h.ready.found
  exact ⟨⟨found, same ▸ h.ready.chain, same ▸ h.ready.length⟩, h.marked, h.room⟩

theorem reconcileInterruptedRun_succeeds {amb reading} {origin s : Store} {run candidate}
    (made : interruptedCandidate origin run = some candidate) (h : Recoverable s run)
    (fresh : ∀ e ∈ s.pipelineEvents, e.eventId ≠ amb.newV4 reading) :
    ∃ result t, reconcileInterruptedRun amb reading candidate s = .ok (result, t) := by
  unfold interruptedCandidate at made
  by_cases cancelling : run.state = .cancelling
  · rw [if_pos cancelling] at made
    obtain rfl := Option.some.inj made
    have edge : StateMachine.isValidTransition run.state .cancelled = true := by
      rw [cancelling]
      decide
    obtain ⟨result, t, moved⟩ := h.ready.transitionInTx_succeeds reading none
      (some "cancellation_completed_after_restart") { cancellationRequested := some true } fresh
      edge h.room
    rw [cancelling] at moved
    refine ⟨result, t, ?_⟩
    simp [reconcileInterruptedRun, peel_ok, okOrElse_eq_ok, refuseIf_eq_ok, cancelling,
      h.ready.found, h.marked cancelling, moved]
  · rw [if_neg cancelling] at made
    cases active : run.state.activeStage with
    | none => simp [active] at made
    | some stage =>
      have edge : StateMachine.isValidTransition run.state .failed = true := by
        cases state : run.state <;> simp_all [PipelineState.activeStage] <;> decide
      obtain ⟨result, t, moved⟩ := h.ready.transitionInTx_succeeds reading (some stage)
        (some interruptionFailureCode) { failure := some (interruptionFailure stage) } fresh
        edge h.room
      refine ⟨result, t, ?_⟩
      simp only [active, Option.ite_none_left_eq_some, Option.some.injEq] at made
      obtain ⟨-, rfl⟩ := made
      simpa [reconcileInterruptedRun, peel_ok, okOrElse_eq_ok, refuseIf_eq_ok, active,
        interruptionFailure, interruptionFailureCode] using moved

theorem reconcileInterruptedRunsInTransaction_succeeds {amb : Ambient}
    (apart : Function.Injective amb.newV4) {origin : Store} {runs : List PipelineRun}
    (distinct : (runs.map (·.runId)).Nodup) :
    ∀ {reading} {s : Store}, (∀ run ∈ runs, Recoverable s run) →
      (∀ n, reading ≤ n → ∀ e ∈ s.pipelineEvents, e.eventId ≠ amb.newV4 n) →
      ∃ result t, reconcileInterruptedRunsInTransaction amb reading
        (runs.filterMap (interruptedCandidate origin)) s = .ok (result, t) := by
  induction runs with
  | nil => exact fun _ _ => ⟨[], _, rfl⟩
  | cons run rest ih =>
      intro reading s ready fresh
      obtain ⟨new, distinct⟩ := List.nodup_cons.mp distinct
      have here := ready run List.mem_cons_self
      have others : ∀ other ∈ rest, Recoverable s other :=
        fun other mem => ready other (List.mem_cons_of_mem _ mem)
      cases made : interruptedCandidate origin run with
      | none =>
          rw [List.filterMap_cons_none made]
          exact ih distinct others fresh
      | some candidate =>
          rw [List.filterMap_cons_some made]
          obtain ⟨first, u, settled⟩ :=
            reconcileInterruptedRun_succeeds made here (fresh reading le_rfl)
          obtain ⟨_, _, _, _, _, moved⟩ := reconcileInterruptedRun_transition settled
          obtain ⟨_, -, -, -, frame⟩ := rowsOf_of_transition moved
          have kept : ∀ other ∈ rest, Recoverable u other := by
            intro other mem
            refine (others other mem).of_rows (frame other.runId fun same => new ?_)
            exact List.mem_map.mpr ⟨other, mem, same.trans (interruptedCandidate_runId made)⟩
          have unused : ∀ n, reading + 1 ≤ n →
              ∀ e ∈ u.pipelineEvents, e.eventId ≠ amb.newV4 n := by
            intro n later e mem
            obtain ⟨_, -, -, -, -, -, -, -, -, rfl⟩ := transitionInTx_ok.mp moved
            rcases List.mem_append.mp mem with before | last
            · exact fresh n (by omega) e before
            · obtain rfl := List.mem_singleton.mp last
              intro same
              have := apart same
              omega
          obtain ⟨result, t, rest_settled⟩ := ih distinct kept unused
          refine ⟨first :: result, t, ?_⟩
          simp only [reconcileInterruptedRunsInTransaction, peel_ok, return_ok]
          exact ⟨(first, u), settled, (result, t), rest_settled, rfl⟩

/-- At a restart the batch commits where no version is used up, every cancelling run is marked
and the events get new identifiers. -/
theorem Reachable.reconciles {codec} {s : Store} (h : Reachable codec s) {amb : Ambient}
    (apart : Function.Injective amb.newV4) (fresh : amb.FreshFor s)
    (listed : ∀ run ∈ listPipelineRunsForRecovery s, run.stateVersion + 1 ≤ u32Max ∧
      (run.state = .cancelling → run.cancellationRequested = true)) :
    ∃ recovered t, transaction (reconcileInterruptedRuns amb) s = (.ok recovered, t) := by
  obtain ⟨recovered, t, settled⟩ := reconcileInterruptedRunsInTransaction_succeeds apart
    (listPipelineRunsForRecovery_nodup s) (fun run mem => ⟨h.readyAt
      (mem_listPipelineRunsForRecovery.mp mem).1, (listed run mem).2, (listed run mem).1⟩)
    fun n _ => fresh n
  exact ⟨recovered, t, transaction_of_ok settled⟩

/-- A run that is being cancelled ends as cancelled. -/
example : (transaction (reconcileInterruptedRuns (sampleAmbient 9)) cancellingStore).1.toOption.map
    (·.map (·.state)) = some [.cancelled] := by
  decide +kernel

end DocumentSummarizer.Pipeline
