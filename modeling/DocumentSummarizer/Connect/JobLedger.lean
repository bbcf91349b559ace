import DocumentSummarizer.Library.KeyedRows
import DocumentSummarizer.Library.OptionSequence
import DocumentSummarizer.Connect.JobStore

/-! # The job ledger

What each transaction does to the table of jobs, and what therefore holds of the table
whatever the callers do: one job is active at a time, a job keeps what it was accepted
with and only moves on, and a request that is sent again is never run twice.
-/

namespace DocumentSummarizer.Connect

open Library Pipeline
open Ocr (JobState JobError JobResult)

/-! ## Moving a job on -/

inductive JobAdvance : JobState → JobState → Prop where
  | start : JobAdvance .accepted .processing
  | complete : JobAdvance .processing .completed
  | refuse : JobAdvance .accepted .failed
  | fail : JobAdvance .processing .failed

/-- Everything a job is accepted with. -/
def StoredConnectJob.SameJob (old new : StoredConnectJob) : Prop :=
  new = { old with
    state := new.state, result := new.result, error := new.error, updatedAt := new.updatedAt }

structure JobUpdate (old new : StoredConnectJob) : Prop where
  same : old.SameJob new
  moved : new = old ∨ JobAdvance old.state new.state

theorem JobUpdate.refl (job : StoredConnectJob) : JobUpdate job job :=
  ⟨rfl, .inl rfl⟩

namespace StoredConnectJob.SameJob

variable {a b c : StoredConnectJob}

theorem trans (left : a.SameJob b) (right : b.SameJob c) : a.SameJob c := by
  unfold StoredConnectJob.SameJob at left right ⊢
  rw [right, left]

theorem jobId (same : a.SameJob b) : b.jobId = a.jobId := by
  rw [same]

theorem pipelineRunId (same : a.SameJob b) : b.pipelineRunId = a.pipelineRunId := by
  rw [same]

theorem input (same : a.SameJob b) : b.input = a.input := by
  rw [same]

theorem protocolVersion (same : a.SameJob b) : b.protocolVersion = a.protocolVersion := by
  rw [same]

theorem requestHash (same : a.SameJob b) : b.requestHash = a.requestHash := by
  rw [same]

end StoredConnectJob.SameJob

variable {job : StoredConnectJob}

theorem active_iff :
    job.active = true ↔ job.state = .accepted ∨ job.state = .processing := by
  unfold StoredConnectJob.active
  cases job.state <;> simp

variable {old new : StoredConnectJob}

theorem JobAdvance.active
    (advance : JobAdvance old.state new.state) : old.active = true := by
  apply active_iff.mpr
  generalize old.state = before at advance ⊢
  generalize new.state = after at advance
  cases advance with
  | start | refuse => exact .inl rfl
  | complete | fail => exact .inr rfl

theorem fail_update {now : DateTime} {error : JobError}
    (active : job.active = true) : JobUpdate job (job.fail now error) := by
  refine ⟨rfl, .inr ?_⟩
  change JobAdvance job.state .failed
  rcases active_iff.mp active with state | state
  · rw [state]
    exact .refuse
  · rw [state]
    exact .fail

/-! ## What one call does to the table -/

/-- What a job must be to be accepted into the table. -/
structure Acceptable (rows : List StoredConnectJob) (pipeline : Store) (job : StoredConnectJob) :
    Prop where
  state : job.state = .accepted
  payload : job.payloadMatches = true
  size : 0 < job.input.byteSize ∧ job.input.byteSize ≤ 9223372036854775807
  protocol : job.protocolVersion = protocolVersion ∨ job.protocolVersion = protocolVersionV2
  newId : ∀ row ∈ rows, row.jobId ≠ job.jobId
  newRun : ∀ row ∈ rows, row.pipelineRunId ≠ job.pipelineRunId
  idle : ∀ row ∈ rows, row.active = false
  profiled : ∃ profile, getRunSummaryProfile pipeline job.pipelineRunId = some profile
  run : job.pipelineRunId ∈ pipeline.pipelineRuns

inductive LedgerStep (codec : Codec) (s : JobStore) : JobStore → Prop where
  | pipeline (call : Call) : LedgerStep codec s ⟨call.after codec s.pipeline, s.connectJobs⟩
  | accepted (call : Call) (job : StoredConnectJob) :
      Acceptable s.connectJobs (call.after codec s.pipeline) job →
      LedgerStep codec s ⟨call.after codec s.pipeline, s.connectJobs ++ [job]⟩
  | updated (rows : List StoredConnectJob) : List.Forall₂ JobUpdate s.connectJobs rows →
      (∀ job ∈ rows, job.payloadMatches = true) → (rows.filter (·.active)).length ≤ 1 →
      LedgerStep codec s ⟨s.pipeline, rows⟩
  | refused : LedgerStep codec s s

theorem insertConnectJob_ok {s t : JobStore}
    (h : insertConnectJob s job = .ok t) (state : job.state = .accepted)
    (size : job.input.byteSize ≤ 9223372036854775807)
    (profiled : ∃ profile, getRunSummaryProfile s.pipeline job.pipelineRunId = some profile) :
    Acceptable s.connectJobs s.pipeline job ∧ t = ⟨s.pipeline, s.connectJobs ++ [job]⟩ := by
  simp only [insertConnectJob, peel_ok, refuseIf_eq_ok, return_ok, exists_const, not_or,
    not_exists, not_and, not_not, Bool.not_eq_false, Bool.not_eq_true] at h
  obtain ⟨⟨positive, protocol, payload⟩, newId, newRun, idle, run, rfl⟩ := h
  refine ⟨⟨state, payload, ⟨Nat.pos_of_ne_zero positive, size⟩, ?_, newId, newRun,
    idle (active_iff.mpr (.inl state)), profiled, run⟩, rfl⟩
  by_cases first : job.protocolVersion = protocolVersion
  · exact .inl first
  · exact .inr (protocol first)

def ingestion (amb : Ambient) (admission : JobAdmission) : Call :=
  ⟨amb, .persistIngestion admission.document admission.run admission.profileSnapshot
    admission.summaryProfile⟩

/-- An accepted job is in the table with the run that the pipeline's own ingestion creates. -/
theorem acceptInTransaction_ok (codec : Codec) {amb : Ambient} {now : DateTime}
    {admission : JobAdmission} {admissionCheck : Nat → Bool} {s t : JobStore}
    {ingested : PipelineRun}
    (h : acceptInTransaction amb now admission admissionCheck s = .ok (some (ingested, t))) :
    admissionCheck 0 = true ∧ admissionCheck 1 = true ∧
    (ingestion amb admission).result codec s.pipeline = .ok () ∧
    getRunSummaryProfile t.pipeline admission.run.runId = some admission.summaryProfile ∧
    Acceptable s.connectJobs t.pipeline (admission.row admission.run.runId now) ∧
    t = ⟨(ingestion amb admission).after codec s.pipeline,
      s.connectJobs ++ [admission.row admission.run.runId now]⟩ := by
  simp only [acceptInTransaction, peel_ok, refuseIf_eq_ok, exists_const, not_lt] at h
  obtain ⟨size, h⟩ := h
  split at h
  · cases h
  · next first =>
      simp only [peel_ok, mapError_ok_iff] at h
      obtain ⟨⟨ingested', pipeline⟩, persisted, pipeline', ensured, u, inserted, h⟩ := h
      split at h
      · cases h
      · next second =>
          obtain ⟨rfl, rfl⟩ := Prod.mk.inj (Option.some.inj (Except.ok.inj h))
          obtain ⟨entering, profiled⟩ := persistIngestionInTransaction_profiled persisted
          obtain ⟨-, key⟩ := persistIngestionInTransaction_ok codec persisted
          simp only [key] at ensured inserted profiled
          have kept := (ensureRunModelProfile_gives ensured).profiled.retains.summaries _ _ profiled
          obtain ⟨acceptable, rfl⟩ := insertConnectJob_ok inserted rfl size ⟨_, kept⟩
          have done : persistIngestionWithProfiles amb admission.document admission.run
              admission.profileSnapshot admission.summaryProfile s.pipeline =
              .ok (ingested', pipeline') := by
            simp only [persistIngestionWithProfiles, peel_ok, refuseIf_eq_ok, return_ok,
              exists_const, not_or, not_not, ne_eq]
            exact ⟨entering, (ingested', pipeline), persisted, pipeline', key ▸ ensured, rfl⟩
          have executed : (ingestion amb admission).execute codec s.pipeline =
              (.ok (), pipeline') :=
            transaction_of_ok (discardResult_ok.mpr ⟨_, done⟩)
          have after : (ingestion amb admission).after codec s.pipeline = pipeline' :=
            congrArg Prod.snd executed
          rw [after]
          exact ⟨by simpa using first, by simpa using second, congrArg Prod.fst executed, kept,
            acceptable, rfl⟩

theorem accept_cases (amb : Ambient) (now : DateTime) (admission : JobAdmission)
    (admissionCheck : Nat → Bool) (s : JobStore) :
    (∃ ingested t, acceptInTransaction amb now admission admissionCheck s =
        .ok (some (ingested, t)) ∧
      acceptJobWithIngestionGuarded amb now admission admissionCheck s =
        ((do
          let stored ← readBack t admission.request.jobId
            "accepted job was not readable after commit"
          return some (ingested, stored)), t)) ∨
    (∃ answer, (∀ accepted, answer ≠ .ok (some accepted)) ∧
      acceptJobWithIngestionGuarded amb now admission admissionCheck s = (answer, s)) := by
  unfold acceptJobWithIngestionGuarded
  cases acceptInTransaction amb now admission admissionCheck s with
  | error e =>
      right
      refine ⟨.error e, ⟨fun _ same => ?_, rfl⟩⟩
      cases same
  | ok answer =>
      cases answer with
      | none =>
          right
          refine ⟨.ok none, ⟨fun _ same => ?_, rfl⟩⟩
          cases same
      | some accepted =>
          obtain ⟨ingested, t⟩ := accepted
          exact .inl ⟨ingested, t, rfl, rfl⟩

theorem updates_map {rows : List StoredConnectJob} {chosen : StoredConnectJob → Bool}
    {set : StoredConnectJob → StoredConnectJob}
    (updates : ∀ job, chosen job = true → JobUpdate job (set job)) :
    List.Forall₂ JobUpdate rows (rows.map fun job => if chosen job then set job else job) := by
  apply List.forall₂_map_right_iff.mpr
  apply List.forall₂_same.mpr
  intro job _
  cases picked : chosen job with
  | false => exact .refl job
  | true => exact updates job picked

theorem updateConnectJobs_ok {s t : JobStore} {chosen : StoredConnectJob → Bool}
    {set : StoredConnectJob → StoredConnectJob} {changed : Nat}
    (updates : ∀ job, chosen job = true → JobUpdate job (set job))
    (h : updateConnectJobs s chosen set = .ok (changed, t)) :
    changed = s.connectJobs.countP chosen ∧
    t = ⟨s.pipeline, s.connectJobs.map fun job => if chosen job then set job else job⟩ ∧
    List.Forall₂ JobUpdate s.connectJobs t.connectJobs ∧
    (∀ job ∈ t.connectJobs, job.payloadMatches = true) ∧
    (t.connectJobs.filter (·.active)).length ≤ 1 := by
  simp only [updateConnectJobs, peel_ok, refuseIf_eq_ok, return_ok, exists_const, not_exists,
    not_and, Bool.not_eq_false, not_lt] at h
  obtain ⟨payload, single, h⟩ := h
  obtain ⟨rfl, rfl⟩ := Prod.mk.inj h
  exact ⟨rfl, rfl, updates_map updates, payload, single⟩

theorem update_step (codec : Codec) {s t : JobStore} {chosen : StoredConnectJob → Bool}
    {set : StoredConnectJob → StoredConnectJob} {changed : Nat}
    (updates : ∀ job, chosen job = true → JobUpdate job (set job))
    (h : updateConnectJobs s chosen set = .ok (changed, t)) : LedgerStep codec s t := by
  obtain ⟨-, same, rows, payload, single⟩ := updateConnectJobs_ok updates h
  rw [same] at rows payload single ⊢
  exact .updated _ rows payload single

theorem updateJob_step (codec : Codec) {s : JobStore} {jobId : String}
    {chosen : StoredConnectJob → Bool} {set : StoredConnectJob → StoredConnectJob}
    (updates : ∀ job, chosen job = true → JobUpdate job (set job)) :
    LedgerStep codec s (updateJob s jobId chosen set).2 := by
  unfold updateJob
  cases outcome : updateConnectJobs s chosen set with
  | error e => exact .refused
  | ok done =>
      obtain ⟨changed, t⟩ := done
      exact update_step codec updates outcome

theorem updateState_step (codec : Codec) {now : DateTime} {jobId : String}
    {expected next : JobState} (advance : JobAdvance expected next)
    {result : Option (JobResult SummaryOutput)} {error : Option JobError} {s : JobStore} :
    LedgerStep codec s (updateState now jobId expected next result error s).2 := by
  apply updateJob_step codec
  intro job chosen
  simp only [Bool.and_eq_true, decide_eq_true_eq] at chosen
  refine ⟨rfl, .inr ?_⟩
  rw [chosen.2]
  exact advance

/-- Everything a call can do to the database. -/
theorem call_step (codec : Codec) (call : JobCall) (s : JobStore) :
    LedgerStep codec s (call.after codec s) := by
  cases call with
  | accept amb now admission admissionCheck =>
      change LedgerStep codec s (acceptJobWithIngestionGuarded amb now admission admissionCheck s).2
      obtain ⟨ingested, t, accepted, answer⟩ | ⟨_, -, answer⟩ :=
        accept_cases amb now admission admissionCheck s
      · obtain ⟨-, -, -, -, acceptable, rfl⟩ := acceptInTransaction_ok codec accepted
        rw [answer]
        exact .accepted _ _ acceptable
      · rw [answer]
        exact .refused
  | markProcessing now jobId => exact updateState_step codec .start
  | markCompleted now jobId result => exact updateState_step codec .complete
  | markFailed now jobId error =>
      apply updateJob_step codec
      intro job chosen
      simp only [Bool.and_eq_true, decide_eq_true_eq] at chosen
      exact fail_update chosen.2
  | markInterruptedJobsFailed now error =>
      change LedgerStep codec s (Connect.markInterruptedJobsFailed now error s).2
      unfold markInterruptedJobsFailed
      cases outcome : updateConnectJobs s (·.active) (.fail now error) with
      | error e => exact .refused
      | ok done =>
          obtain ⟨changed, t⟩ := done
          exact update_step codec (fun _ => fail_update) outcome
  | pipeline call => exact .pipeline call

/-! ## What always holds of the table -/

/-- What is known of any job, whatever became of it. -/
structure Admitted (pipeline : Store) (job : StoredConnectJob) : Prop where
  size : 0 < job.input.byteSize ∧ job.input.byteSize ≤ 9223372036854775807
  protocol : job.protocolVersion = protocolVersion ∨ job.protocolVersion = protocolVersionV2
  run : ∃ run, getPipelineRun pipeline job.pipelineRunId = some run
  profiled : ∃ profile, getRunSummaryProfile pipeline job.pipelineRunId = some profile

structure JobLedger (codec : Codec) (s : JobStore) : Prop where
  pipeline : Reachable codec s.pipeline
  ids : (s.connectJobs.map (·.jobId)).Nodup
  runs : (s.connectJobs.map (·.pipelineRunId)).Nodup
  single : (s.connectJobs.filter (·.active)).length ≤ 1
  payload : ∀ job ∈ s.connectJobs, job.payloadMatches = true
  admitted : ∀ job ∈ s.connectJobs, Admitted s.pipeline job

theorem Acceptable.admitted {rows : List StoredConnectJob} {pipeline : Store}
    (acceptable : Acceptable rows pipeline job) :
    Admitted pipeline job where
  size := acceptable.size
  protocol := acceptable.protocol
  run := by
    cases found : getPipelineRun pipeline job.pipelineRunId with
    | none => exact absurd acceptable.run (getPipelineRun_eq_none.mp found)
    | some run => exact ⟨run, rfl⟩
  profiled := acceptable.profiled

theorem Admitted.later {s t : Store} (admitted : Admitted s job)
    (grown : s.Extends t) : Admitted t job where
  size := admitted.size
  protocol := admitted.protocol
  run := by
    obtain ⟨run, found⟩ := admitted.run
    obtain ⟨run', found', -⟩ := (grown.rows job.pipelineRunId).row run found
    exact ⟨run', found'⟩
  profiled := by
    obtain ⟨profile, stored⟩ := admitted.profiled
    exact ⟨profile, grown.summaries _ _ stored⟩

theorem Admitted.update {s : Store} (admitted : Admitted s old)
    (same : old.SameJob new) : Admitted s new where
  size := by
    rw [same.input]
    exact admitted.size
  protocol := by
    rw [same.protocolVersion]
    exact admitted.protocol
  run := by
    rw [same.pipelineRunId]
    exact admitted.run
  profiled := by
    rw [same.pipelineRunId]
    exact admitted.profiled

theorem map_of_updates {β : Type} {f : StoredConnectJob → β} {rows later : List StoredConnectJob}
    (kept : ∀ old new, old.SameJob new → f new = f old)
    (updates : List.Forall₂ JobUpdate rows later) : later.map f = rows.map f := by
  induction updates with
  | nil => rfl
  | cons first _ ih => rw [List.map_cons, List.map_cons, ih, kept _ _ first.same]

theorem LedgerStep.keeps {codec : Codec} {s t : JobStore} (step : LedgerStep codec s t)
    (ledger : JobLedger codec s) : JobLedger codec t := by
  cases step with
  | refused => exact ledger
  | pipeline call =>
      have grown := call_extends call ledger.pipeline
      exact ⟨ledger.pipeline.after call, ledger.ids, ledger.runs, ledger.single, ledger.payload,
        fun job mem => (ledger.admitted job mem).later grown⟩
  | accepted call job acceptable =>
      have grown := call_extends call ledger.pipeline
      refine ⟨ledger.pipeline.after call, nodup_snoc ledger.ids acceptable.newId,
        nodup_snoc ledger.runs acceptable.newRun, ?_, ?_, ?_⟩
      · -- no other job is active, so the new one is the only one
        have idle : s.connectJobs.filter (·.active) = [] := by
          rw [List.filter_eq_nil_iff]
          intro row mem
          rw [acceptable.idle row mem]
          exact Bool.false_ne_true
        simp only [List.filter_append, idle, List.nil_append]
        exact List.length_filter_le _ [job]
      · intro row mem
        rcases List.mem_append.mp mem with before | last
        · exact ledger.payload row before
        · rw [List.mem_singleton.mp last]
          exact acceptable.payload
      · intro row mem
        rcases List.mem_append.mp mem with before | last
        · exact (ledger.admitted row before).later grown
        · rw [List.mem_singleton.mp last]
          exact acceptable.admitted
  | updated rows updates payload single =>
      refine ⟨ledger.pipeline, ?_, ?_, single, payload, ?_⟩
      · simp only [map_of_updates (fun _ _ => StoredConnectJob.SameJob.jobId) updates]
        exact ledger.ids
      · simp only [map_of_updates (fun _ _ => StoredConnectJob.SameJob.pipelineRunId) updates]
        exact ledger.runs
      · intro job mem
        obtain ⟨old, before, update⟩ := forall₂_right_exists updates mem
        exact (ledger.admitted old before).update update.same

theorem ledger_of_reachable {codec : Codec} {s : JobStore}
    (reach : (jobMachine codec).Reachable s) : JobLedger codec s := by
  refine reach.invariant ?_ ?_
  · rintro s rfl
    have start : Reachable codec Store.empty := .of_init rfl
    have nothing : ∀ {P : StoredConnectJob → Prop}, ∀ job ∈ JobStore.empty.connectJobs, P job :=
      fun _ mem => absurd mem List.not_mem_nil
    exact ⟨start, List.nodup_nil, List.nodup_nil, Nat.zero_le _, nothing, nothing⟩
  · rintro s call _ rfl ledger
    exact (call_step codec call s).keeps ledger

/-! ## Reading the table -/

namespace JobLedger

variable {codec : Codec} {s : JobStore}

theorem getJob_eq (ledger : JobLedger codec s) (jobId : String) :
    getJob s jobId = .ok (s.connectJobs.find? (·.jobId = jobId)) := by
  unfold getJob
  cases found : s.connectJobs.find? (·.jobId = jobId) with
  | none => rfl
  | some job =>
      have payload := ledger.payload job (List.mem_of_find?_eq_some found)
      simp only [validateStatePayload, payload]
      rfl

theorem getJob_some (ledger : JobLedger codec s) {jobId : String} {job : StoredConnectJob} :
    getJob s jobId = .ok (some job) ↔ job ∈ s.connectJobs ∧ job.jobId = jobId := by
  rw [ledger.getJob_eq, Except.ok.injEq, find_eq_some_iff ledger.ids]

theorem active_unique (ledger : JobLedger codec s) {a b : StoredConnectJob}
    (left : a ∈ s.connectJobs) (right : b ∈ s.connectJobs) (activeA : a.active = true)
    (activeB : b.active = true) : a = b := by
  have inA : a ∈ s.connectJobs.filter (·.active) := List.mem_filter.mpr ⟨left, activeA⟩
  have inB : b ∈ s.connectJobs.filter (·.active) := List.mem_filter.mpr ⟨right, activeB⟩
  have single := ledger.single
  generalize s.connectJobs.filter (·.active) = actives at inA inB single
  cases actives with
  | nil => cases inA
  | cons first rest =>
      have nil : rest = [] := List.eq_nil_of_length_eq_zero (by simp at single; simpa using single)
      subst nil
      rw [List.mem_singleton.mp inA, List.mem_singleton.mp inB]

end JobLedger

/-! ## Every update succeeds -/

theorem JobUpdate.active (update : JobUpdate old new)
    (active : new.active = true) : old.active = true := by
  rcases update.moved with rfl | advance
  · exact active
  · exact advance.active

theorem active_count_le {rows later : List StoredConnectJob}
    (updates : List.Forall₂ JobUpdate rows later) :
    (later.filter (·.active)).length ≤ (rows.filter (·.active)).length := by
  induction updates with
  | nil => exact Nat.le_refl _
  | @cons old new _ _ first _ ih =>
      simp only [List.filter_cons]
      cases now : new.active with
      | false =>
          cases old.active with
          | false => exact ih
          | true => exact ih.trans (Nat.le_succ _)
      | true =>
          rw [first.active now]
          exact Nat.succ_le_succ ih

section Updates

variable {codec : Codec} {s : JobStore} {chosen : StoredConnectJob → Bool}
  {set : StoredConnectJob → StoredConnectJob}

/-- The store that an update leaves. -/
def JobStore.updated (s : JobStore) (chosen : StoredConnectJob → Bool)
    (set : StoredConnectJob → StoredConnectJob) : JobStore :=
  ⟨s.pipeline, s.connectJobs.map fun job => if chosen job then set job else job⟩

theorem updateConnectJobs_total (ledger : JobLedger codec s)
    (updates : ∀ job, chosen job = true → JobUpdate job (set job))
    (payload : ∀ job, chosen job = true → (set job).payloadMatches = true) :
    updateConnectJobs s chosen set =
      .ok (s.connectJobs.countP chosen, s.updated chosen set) := by
  have single := (active_count_le (updates_map updates)).trans ledger.single
  simp only [updateConnectJobs, peel_ok, refuseIf_eq_ok, return_ok, exists_const, not_exists,
    not_and, Bool.not_eq_false, not_lt]
  refine ⟨?_, single, rfl⟩
  intro job mem
  obtain ⟨old, before, rfl⟩ := List.mem_map.mp mem
  cases picked : chosen old with
  | false => exact ledger.payload old before
  | true => exact payload old picked

theorem countP_eq_one {jobId : String} (ids : (s.connectJobs.map (·.jobId)).Nodup)
    (only : ∀ job, chosen job = true → job.jobId = jobId) {job : StoredConnectJob}
    (mem : job ∈ s.connectJobs) (picked : chosen job = true) :
    s.connectJobs.countP chosen = 1 := by
  have sub : (s.connectJobs.filter chosen).Nodup := (ids.of_map _).filter _
  have all : ∀ other ∈ s.connectJobs.filter chosen, other = job := by
    intro other inside
    obtain ⟨before, chosenOther⟩ := List.mem_filter.mp inside
    exact List.inj_on_of_nodup_map ids before mem
      ((only other chosenOther).trans (only job picked).symm)
  rw [List.countP_eq_length_filter]
  have this : job ∈ s.connectJobs.filter chosen := List.mem_filter.mpr ⟨mem, picked⟩
  rw [List.eq_replicate_length.mpr all] at sub
  have short := List.nodup_replicate.mp sub
  exact Nat.le_antisymm short (List.length_pos_of_mem this)

theorem updateJob_exact (ledger : JobLedger codec s) {jobId : String}
    {stands : StoredConnectJob → Bool}
    (updates : ∀ job, stands job = true → JobUpdate job (set job))
    (payload : ∀ job, (set job).payloadMatches = true) :
    (∀ job ∈ s.connectJobs, job.jobId = jobId → stands job = true →
      updateJob s jobId (fun job => job.jobId = jobId && stands job) set =
        (.ok (set job), s.updated (fun job => job.jobId = jobId && stands job) set)) ∧
    ((∀ job ∈ s.connectJobs, job.jobId = jobId → stands job = false) →
      updateJob s jobId (fun job => job.jobId = jobId && stands job) set =
        (.error (.staleJob jobId), s)) := by
  have picked : ∀ job : StoredConnectJob, (job.jobId = jobId && stands job : Bool) = true ↔
      job.jobId = jobId ∧ stands job = true := by
    intro job
    rw [Bool.and_eq_true, decide_eq_true_eq]
  have updates' : ∀ job : StoredConnectJob, (job.jobId = jobId && stands job : Bool) = true →
      JobUpdate job (set job) := fun job inside => updates job ((picked job).mp inside).2
  have total := updateConnectJobs_total ledger updates' fun job _ => payload job
  constructor
  · intro job mem key stand
    have inside := (picked job).mpr ⟨key, stand⟩
    have read := ((update_step codec updates' total).keeps ledger).getJob_some.mpr
      ⟨List.mem_map.mpr ⟨job, mem, if_pos inside⟩, (updates' job inside).same.jobId.trans key⟩
    have one := countP_eq_one ledger.ids (fun other h => ((picked other).mp h).1) mem inside
    simp only [updateJob, total, one, readBack, read]
    rfl
  · intro none
    have kept : ∀ job ∈ s.connectJobs, ¬ (job.jobId = jobId && stands job : Bool) = true := by
      intro job mem inside
      obtain ⟨key, stand⟩ := (picked job).mp inside
      rw [none job mem key] at stand
      cases stand
    have same : s.connectJobs.map (fun job =>
        if (job.jobId = jobId && stands job : Bool) then set job else job) = s.connectJobs :=
      (List.map_congr_left fun job mem => if_neg (kept job mem)).trans (List.map_id' _)
    simp only [updateJob, total, List.countP_eq_zero.mpr kept, JobStore.updated, same]
    rfl

end Updates

/-- The row that `update_state` sets. -/
def StoredConnectJob.moveTo (next : JobState) (result : Option (JobResult SummaryOutput))
    (error : Option JobError) (now : DateTime) (job : StoredConnectJob) : StoredConnectJob :=
  { job with state := next, result := result, error := error, updatedAt := now }

theorem updateState_exact {codec : Codec} {s : JobStore} (ledger : JobLedger codec s)
    {now : DateTime} {jobId : String} {expected next : JobState}
    {result : Option (JobResult SummaryOutput)} {error : Option JobError}
    (advance : JobAdvance expected next)
    (payload : ∀ job : StoredConnectJob, (job.moveTo next result error now).payloadMatches = true) :
    (∀ job ∈ s.connectJobs, job.jobId = jobId → job.state = expected →
      updateState now jobId expected next result error s = (.ok (job.moveTo next result error now),
        s.updated (fun job => job.jobId = jobId && job.state = expected)
          (.moveTo next result error now))) ∧
    ((∀ job ∈ s.connectJobs, job.jobId = jobId → job.state ≠ expected) →
      updateState now jobId expected next result error s = (.error (.staleJob jobId), s)) := by
  obtain ⟨moves, stale⟩ := @updateJob_exact codec s (.moveTo next result error now)
    ledger jobId (fun job => job.state = expected)
    (fun job stands => ⟨rfl, .inr ((of_decide_eq_true stands).symm ▸ advance)⟩) payload
  constructor
  · intro job mem key state
    exact moves job mem key (decide_eq_true state)
  · intro none
    exact stale fun job mem key => decide_eq_false (none job mem key)

theorem fail_payload (now : DateTime) (error : JobError) (job : StoredConnectJob) :
    (job.fail now error).payloadMatches = true :=
  rfl

theorem markFailed_exact {codec : Codec} {s : JobStore} (ledger : JobLedger codec s)
    {now : DateTime} {jobId : String} {error : JobError} :
    (∀ job ∈ s.connectJobs, job.jobId = jobId → job.active = true →
      markFailed now jobId error s = (.ok (job.fail now error),
        s.updated (fun job => job.jobId = jobId && job.active) (.fail now error))) ∧
    ((∀ job ∈ s.connectJobs, job.jobId = jobId → job.active = false) →
      markFailed now jobId error s = (.error (.staleJob jobId), s)) :=
  updateJob_exact ledger (fun _ => fail_update) (fail_payload now error)

theorem markFailed_settles {codec : Codec} {s : JobStore} (ledger : JobLedger codec s)
    {now : DateTime} {jobId : String} {error : JobError}
    (mem : job ∈ (markFailed now jobId error s).2.connectJobs) (key : job.jobId = jobId) :
    job.active = false := by
  obtain ⟨moves, stale⟩ := @markFailed_exact codec s ledger now jobId error
  by_cases running : ∃ old ∈ s.connectJobs, old.jobId = jobId ∧ old.active = true
  · obtain ⟨old, before, oldKey, active⟩ := running
    rw [moves old before oldKey active] at mem
    obtain ⟨other, -, rfl⟩ := List.mem_map.mp mem
    by_cases picked : (other.jobId = jobId && other.active : Bool) = true
    · rw [if_pos picked]
      rfl
    · rw [if_neg picked] at key ⊢
      simpa [key] using picked
  · have none : ∀ old ∈ s.connectJobs, old.jobId = jobId → old.active = false := by
      intro old before oldKey
      by_contra active
      exact running ⟨old, before, oldKey, by simpa using active⟩
    rw [stale none] at mem
    exact none job mem key

theorem markInterruptedJobsFailed_exact {codec : Codec} {s : JobStore}
    (ledger : JobLedger codec s) (now : DateTime) (error : JobError) :
    markInterruptedJobsFailed now error s =
      (.ok (s.connectJobs.countP (·.active)), s.updated (·.active) (.fail now error)) ∧
    ∀ job ∈ (s.updated (·.active) (.fail now error)).connectJobs, job.active = false := by
  have total := updateConnectJobs_total ledger (fun _ => fail_update)
    (fun job _ => fail_payload now error job)
  constructor
  · simp only [markInterruptedJobsFailed, total]
  · intro job mem
    obtain ⟨old, -, rfl⟩ := List.mem_map.mp mem
    cases before : old.active with
    | false => simp [before]
    | true =>
        simp only [before, if_true]
        rfl

theorem activeV2_eq {codec : Codec} {s : JobStore} (ledger : JobLedger codec s) :
    activeV2ProviderInstanceId s = .ok ((s.connectJobs.find? fun job =>
      job.protocolVersion = protocolVersionV2 && job.active).map (·.providerInstanceId)) := by
  unfold activeV2ProviderInstanceId
  rw [← List.head?_filter]
  have short : (s.connectJobs.filter fun job =>
      job.protocolVersion = protocolVersionV2 && job.active).length ≤ 1 := by
    rw [← List.filter_filter]
    exact (List.length_filter_le _ _).trans ledger.single
  generalize s.connectJobs.filter (fun job =>
    job.protocolVersion = protocolVersionV2 && job.active) = jobs at short ⊢
  cases jobs with
  | nil => simp
  | cons job rest =>
      have nil : rest = [] := List.eq_nil_of_length_eq_zero (by simpa using short)
      subst nil
      simp

theorem run_afterJobCalls (codec : Codec) (s : JobStore) (calls : List JobCall) :
    (jobMachine codec).Run s calls (s.afterCalls codec calls) :=
  .foldl (fun _ _ => rfl) s calls

theorem reachable_afterJobCalls (codec : Codec) (calls : List JobCall) :
    (jobMachine codec).Reachable (JobStore.empty.afterCalls codec calls) :=
  ⟨JobStore.empty, calls, rfl, run_afterJobCalls codec _ calls⟩

/-- Of any jobs that any callers were given, whatever else happened to the database: each
reads back, at most one is active, each has a run of its own that is profiled, and the
provider that a running protocol 2 job is bound to is never in doubt. -/
theorem job_ledger_holds {codec : Codec} {s : JobStore} (reach : (jobMachine codec).Reachable s) :
    (∀ jobId, ∃ found, getJob s jobId = .ok found ∧
      ∀ job, found = some job ↔ job ∈ s.connectJobs ∧ job.jobId = jobId) ∧
    (∀ a ∈ s.connectJobs, ∀ b ∈ s.connectJobs, a.active = true → b.active = true → a = b) ∧
    (∀ a ∈ s.connectJobs, ∀ b ∈ s.connectJobs, a.pipelineRunId = b.pipelineRunId → a = b) ∧
    (∀ job ∈ s.connectJobs, job.payloadMatches = true ∧ Admitted s.pipeline job) ∧
    activeV2ProviderInstanceId s = .ok ((s.connectJobs.find? fun job =>
      job.protocolVersion = protocolVersionV2 && job.active).map (·.providerInstanceId)) := by
  have ledger := ledger_of_reachable reach
  exact ⟨fun jobId => ⟨_, ledger.getJob_eq jobId, fun job => find_eq_some_iff ledger.ids⟩,
    fun a left b right => ledger.active_unique left right,
    fun a left b right same => List.inj_on_of_nodup_map ledger.runs left right same,
    fun job mem => ⟨ledger.payload job mem, ledger.admitted job mem⟩, activeV2_eq ledger⟩

def sampleInput : Ocr.InputArtifact :=
  ⟨"artifact", "application/pdf", 4, "hash", "scan.pdf", "mail-reader"⟩

def sampleAdmission : JobAdmission where
  request := ⟨2, "job", ⟨capabilityId, capabilityVersion⟩, [sampleInput], rfl⟩
  requestHash := "request"
  importPath := "imports/scan.pdf"
  providerInstanceId := "provider"
  document := sampleDocument
  run := prepareReceivedRun "root" "document" 0
  summaryProfile := .general
  profileSnapshot := none

def sampleAcceptance : JobCall :=
  .accept (sampleAmbient 0) 0 sampleAdmission fun _ => true

/-- One job, accepted into an empty database. -/
def acceptedJobs : JobStore :=
  JobStore.empty.afterCalls sampleCodec [sampleAcceptance]

theorem reachable_acceptedJobs : (jobMachine sampleCodec).Reachable acceptedJobs :=
  reachable_afterJobCalls sampleCodec [sampleAcceptance]

theorem acceptedJobs_rows : acceptedJobs.connectJobs = [sampleAdmission.row "root" 0] := by
  decide +kernel

theorem accepted_job_binds_its_provider :
    activeV2ProviderInstanceId acceptedJobs = .ok (some "provider") := by
  obtain ⟨-, -, -, -, bound⟩ := job_ledger_holds reachable_acceptedJobs
  rw [bound, acceptedJobs_rows]
  rfl

/-- On a table that callers have made, an update is never refused for a constraint: it moves
the job that is in the state it asks for and no other row, or says that there is none and changes
nothing. -/
theorem job_updates_are_exact {codec : Codec} {s : JobStore}
    (reach : (jobMachine codec).Reachable s) (now : DateTime) (jobId : String)
    (result : JobResult SummaryOutput) (error : JobError) :
    (s.connectJobs.map (·.jobId)).Nodup ∧
    ((∀ job ∈ s.connectJobs, job.jobId = jobId → job.state = .accepted →
        markProcessing now jobId s = (.ok (job.moveTo .processing none none now),
          s.updated (fun job => job.jobId = jobId && job.state = .accepted)
            (.moveTo .processing none none now))) ∧
      ((∀ job ∈ s.connectJobs, job.jobId = jobId → job.state ≠ .accepted) →
        markProcessing now jobId s = (.error (.staleJob jobId), s))) ∧
    ((∀ job ∈ s.connectJobs, job.jobId = jobId → job.state = .processing →
        markCompleted now jobId result s = (.ok (job.moveTo .completed (some result) none now),
          s.updated (fun job => job.jobId = jobId && job.state = .processing)
            (.moveTo .completed (some result) none now))) ∧
      ((∀ job ∈ s.connectJobs, job.jobId = jobId → job.state ≠ .processing) →
        markCompleted now jobId result s = (.error (.staleJob jobId), s))) ∧
    ((∀ job ∈ s.connectJobs, job.jobId = jobId → job.active = true →
        markFailed now jobId error s = (.ok (job.fail now error),
          s.updated (fun job => job.jobId = jobId && job.active) (.fail now error))) ∧
      ((∀ job ∈ s.connectJobs, job.jobId = jobId → job.active = false) →
        markFailed now jobId error s = (.error (.staleJob jobId), s))) ∧
    markInterruptedJobsFailed now error s =
      (.ok (s.connectJobs.countP (·.active)), s.updated (·.active) (.fail now error)) ∧
    ∀ job ∈ (s.updated (·.active) (.fail now error)).connectJobs, job.active = false := by
  have ledger := ledger_of_reachable reach
  exact ⟨ledger.ids, updateState_exact ledger .start fun _ => rfl,
    updateState_exact ledger .complete fun _ => rfl, markFailed_exact ledger,
    markInterruptedJobsFailed_exact ledger now error⟩

theorem accepted_job_starts : markProcessing 9 "job" acceptedJobs =
    (.ok ((sampleAdmission.row "root" 0).moveTo .processing none none 9),
      ⟨acceptedJobs.pipeline, [(sampleAdmission.row "root" 0).moveTo .processing none none 9]⟩) := by
  obtain ⟨-, ⟨starts, -⟩, -⟩ := job_updates_are_exact reachable_acceptedJobs 9 "job" ⟨[]⟩
    (jobError "PROVIDER_RESTARTED" "The provider restarted before the job completed." true)
  have moved := starts (sampleAdmission.row "root" 0)
    (acceptedJobs_rows ▸ List.mem_singleton.mpr rfl) rfl rfl
  rw [moved, JobStore.updated, acceptedJobs_rows]
  rfl

theorem getJob_mem {s : JobStore} {jobId : String}
    (read : getJob s jobId = .ok (some job)) : job ∈ s.connectJobs := by
  unfold getJob at read
  cases found : s.connectJobs.find? (·.jobId = jobId) with
  | none =>
      rw [found] at read
      cases read
  | some row =>
      simp only [found, peel_ok, return_ok, Option.some.injEq] at read
      obtain ⟨-, -, rfl⟩ := read
      exact List.mem_of_find?_eq_some found

theorem updateJob_mem {s t : JobStore} {jobId : String} {chosen : StoredConnectJob → Bool}
    {set : StoredConnectJob → StoredConnectJob}
    (h : updateJob s jobId chosen set = (.ok job, t)) : job ∈ t.connectJobs := by
  unfold updateJob at h
  cases outcome : updateConnectJobs s chosen set with
  | error e =>
      rw [outcome] at h
      cases h
  | ok done =>
      rw [outcome] at h
      obtain ⟨answer, rfl⟩ := Prod.mk.inj h
      simp only [readBack, peel_ok, okOrElse_eq_ok] at answer
      obtain ⟨-, -, found, read, rfl⟩ := answer
      exact getJob_mem read

/-! ## The history of a job -/

/-- A job, and what any later calls leave of it. -/
structure JobHistory (old new : StoredConnectJob) : Prop where
  same : old.SameJob new
  advances : Relation.ReflTransGen JobAdvance old.state new.state
  settled : old.active = false → new = old

theorem JobHistory.refl (job : StoredConnectJob) : JobHistory job job :=
  ⟨rfl, .refl, fun _ => rfl⟩

theorem JobHistory.trans {a b c : StoredConnectJob} (left : JobHistory a b)
    (right : JobHistory b c) : JobHistory a c where
  same := left.same.trans right.same
  advances := left.advances.trans right.advances
  settled ended := by
    have first := left.settled ended
    subst first
    exact right.settled ended

theorem JobUpdate.history (update : JobUpdate old new) :
    JobHistory old new where
  same := update.same
  advances := by
    rcases update.moved with rfl | advance
    · exact .refl
    · exact .single advance
  settled ended := by
    rcases update.moved with same | advance
    · exact same
    · rw [advance.active] at ended
      cases ended

/-- The rows of a table, and those of one that later calls leave. -/
def RowsKept (rows later : List StoredConnectJob) : Prop :=
  ∃ kept added, later = kept ++ added ∧ List.Forall₂ JobHistory rows kept

theorem RowsKept.refl (rows : List StoredConnectJob) : RowsKept rows rows :=
  ⟨rows, [], (List.append_nil rows).symm, List.forall₂_same.mpr fun job _ => .refl job⟩

theorem history_trans {as bs cs : List StoredConnectJob} (left : List.Forall₂ JobHistory as bs)
    (right : List.Forall₂ JobHistory bs cs) : List.Forall₂ JobHistory as cs := by
  induction left generalizing cs with
  | nil => exact right
  | cons first _ ih =>
      cases right with
      | cons second rest => exact .cons (first.trans second) (ih rest)

theorem RowsKept.trans {as bs cs : List StoredConnectJob} (left : RowsKept as bs)
    (right : RowsKept bs cs) : RowsKept as cs := by
  obtain ⟨kept, added, rfl, before⟩ := left
  obtain ⟨later, new, rfl, after⟩ := right
  have front := (List.forall₂_take_append later kept added after.flip).flip
  refine ⟨later.take kept.length, later.drop kept.length ++ new, ?_, history_trans before front⟩
  rw [← List.append_assoc, List.take_append_drop]

theorem LedgerStep.rowsKept {codec : Codec} {s t : JobStore} (step : LedgerStep codec s t) :
    RowsKept s.connectJobs t.connectJobs := by
  cases step with
  | pipeline | refused => exact .refl _
  | accepted call job =>
      exact ⟨s.connectJobs, [job], rfl, List.forall₂_same.mpr fun row _ => .refl row⟩
  | updated rows updates =>
      exact ⟨rows, [], (List.append_nil rows).symm, updates.imp fun _ _ => JobUpdate.history⟩

theorem LedgerStep.extends {codec : Codec} {s t : JobStore} (step : LedgerStep codec s t)
    (ledger : JobLedger codec s) : s.pipeline.Extends t.pipeline := by
  cases step with
  | pipeline call | accepted call => exact call_extends call ledger.pipeline
  | updated | refused => exact .refl _

/-- What later calls leave of the database: a job keeps everything it was accepted with and
only moves on, an ended one is never touched again, and its run only grows. -/
theorem job_history_is_kept {codec : Codec} {s t : JobStore} {calls : List JobCall}
    (reach : (jobMachine codec).Reachable s) (run : (jobMachine codec).Run s calls t) :
    ∃ kept added, t.connectJobs = kept ++ added ∧
      List.Forall₂ JobHistory s.connectJobs kept ∧
      (∀ job ∈ added, ∀ old ∈ s.connectJobs,
        job.jobId ≠ old.jobId ∧ job.pipelineRunId ≠ old.pipelineRunId) ∧
      ∀ job ∈ t.connectJobs,
        (s.pipeline.rowsOf job.pipelineRunId).Extends (t.pipeline.rowsOf job.pipelineRunId) := by
  have grown : s.pipeline.Extends t.pipeline ∧ RowsKept s.connectJobs t.connectJobs := by
    refine run.preserves_reachable (P := fun u => s.pipeline.Extends u.pipeline ∧
      RowsKept s.connectJobs u.connectJobs) ?_ reach ⟨.refl _, .refl _⟩
    rintro u call _ reach' rfl ⟨before, rows⟩
    have step := call_step codec call u
    exact ⟨before.trans (step.extends (ledger_of_reachable reach')), rows.trans step.rowsKept⟩
  obtain ⟨extended, kept, added, rows, history⟩ := grown
  have ledger := ledger_of_reachable (reach.extend run)
  refine ⟨kept, added, rows, history, ?_, fun job _ => extended.rows _⟩
  intro job new old before
  obtain ⟨later, inside, change⟩ := forall₂_left_exists history before
  have ids := ledger.ids
  have runs := ledger.runs
  rw [rows, List.map_append, List.nodup_append] at ids runs
  constructor
  · rintro same
    exact ids.2.2 _ (List.mem_map_of_mem inside) _ (List.mem_map_of_mem new)
      (change.same.jobId.trans same.symm)
  · rintro same
    exact runs.2.2 _ (List.mem_map_of_mem inside) _ (List.mem_map_of_mem new)
      (change.same.pipelineRunId.trans same.symm)

theorem accepted_job_is_kept : ∃ kept added,
    (acceptedJobs.afterCalls sampleCodec [.markProcessing 9 "job"]).connectJobs = kept ++ added ∧
      List.Forall₂ JobHistory acceptedJobs.connectJobs kept := by
  obtain ⟨kept, added, rows, history, -⟩ := job_history_is_kept reachable_acceptedJobs
    (run_afterJobCalls sampleCodec acceptedJobs [.markProcessing 9 "job"])
  exact ⟨kept, added, rows, history⟩

end DocumentSummarizer.Connect
