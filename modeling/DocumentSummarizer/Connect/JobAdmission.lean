import DocumentSummarizer.Connect.JobLedger

/-! # Admitting a job

What an admission answers when any other calls may commit between its own reads and
writes: an answer is true of the database it leaves, a refused request has accepted
nothing, and a request that is sent again is answered from the job it already has.
-/

namespace DocumentSummarizer.Connect

open Library Pipeline
open Ocr (JobState JobError JobResult)

theorem afterCalls_append (codec : Codec) (s : JobStore) (first second : List JobCall) :
    (s.afterCalls codec first).afterCalls codec second = s.afterCalls codec (first ++ second) :=
  (List.foldl_append ..).symm

theorem idempotentResponse_ok {existing : StoredConnectJob} {requestHash : String}
    {version : WireVersion} {response : JobResponse}
    (h : idempotentResponse existing requestHash version = .ok response) :
    existingRequestMatches existing requestHash version = true ∧ response = ⟨200, existing⟩ := by
  unfold idempotentResponse at h
  split at h
  · next same => exact ⟨same, (Except.ok.inj h).symm⟩
  · cases h

theorem idempotentResponse_error {existing : StoredConnectJob} {requestHash : String}
    {version : WireVersion} {e : ProviderHttpError}
    (h : idempotentResponse existing requestHash version = .error e) :
    existingRequestMatches existing requestHash version = false ∧ e = jobIdConflict := by
  unfold idempotentResponse at h
  split at h
  · cases h
  · next other => exact ⟨by simpa using other, (Except.error.inj h).symm⟩

/-! ## An answer is true -/

section Answers

variable {codec : Codec} {version : WireVersion} {admission : JobAdmission} {s t : JobStore}

/-- The answer to a request, against the database at the time. -/
structure Truthful (codec : Codec) (version : WireVersion) (admission : JobAdmission)
    (outcome : Except ProviderHttpError JobResponse × JobStore) : Prop where
  reachable : (jobMachine codec).Reachable outcome.2
  answered : ∀ response, outcome.1 = .ok response → response.job ∈ outcome.2.connectJobs ∧
    response.job.jobId = admission.request.jobId ∧
    existingRequestMatches response.job admission.requestHash version = true
  conflict : outcome.1 = .error jobIdConflict → ∃ job ∈ outcome.2.connectJobs,
    job.jobId = admission.request.jobId ∧
    existingRequestMatches job admission.requestHash version = false
  busy : ∀ message, outcome.1 = .error (providerBusy message) →
    ∃ job ∈ outcome.2.connectJobs, job.active = true

theorem truthful_replay (reach : (jobMachine codec).Reachable t) {existing : StoredConnectJob}
    (found : getJob t admission.request.jobId = .ok (some existing)) :
    Truthful codec version admission
      (idempotentResponse existing admission.requestHash version, t) := by
  obtain ⟨mem, key⟩ := (ledger_of_reachable reach).getJob_some.mp found
  constructor
  · exact reach
  · intro response answer
    obtain ⟨same, rfl⟩ := idempotentResponse_ok answer
    exact ⟨mem, key, same⟩
  · intro answer
    exact ⟨existing, mem, key, (idempotentResponse_error answer).1⟩
  · intro message answer
    have codes := congrArg (·.error.code) (idempotentResponse_error answer).2
    simp [providerBusy, jobIdConflict, ProviderHttpError.new, jobError] at codes

theorem truthful_busy (reach : (jobMachine codec).Reachable t) (active : hasActiveJob t = true)
    (message : String) : Truthful codec version admission (.error (providerBusy message), t) := by
  constructor
  · exact reach
  · intro response answer
    cases answer
  · intro answer
    have codes := congrArg (·.error.code) (Except.error.inj answer)
    simp [providerBusy, jobIdConflict, ProviderHttpError.new, jobError] at codes
  · intro _ _
    exact List.any_eq_true.mp active

theorem truthful_error (reach : (jobMachine codec).Reachable t) {e : ProviderHttpError}
    (code : e.error.code ≠ "JOB_ID_CONFLICT" ∧ e.error.code ≠ "PROVIDER_BUSY") :
    Truthful codec version admission (.error e, t) := by
  constructor
  · exact reach
  · intro response answer
    cases answer
  · intro answer
    exact absurd (congrArg (·.error.code) (Except.error.inj answer)) code.1
  · intro message answer
    exact absurd (congrArg (·.error.code) (Except.error.inj answer)) code.2

/-- A request that was not accepted: only calls of others have changed the database. -/
structure Declined (codec : Codec) (s : JobStore) (possible : List JobCall)
    (outcome : Except ProviderHttpError JobResponse × JobStore) : Prop where
  others : ∃ calls, calls.Sublist possible ∧ outcome.2 = s.afterCalls codec calls
  spared : outcome.1 ≠ .error workerUnavailable
  replayed : ∀ response, outcome.1 = .ok response → response.status = 200

theorem declined_replay {possible calls : List JobCall} (sub : calls.Sublist possible)
    (existing : StoredConnectJob) (requestHash : String) : Declined codec s possible
      (idempotentResponse existing requestHash version, s.afterCalls codec calls) := by
  refine ⟨⟨calls, sub, rfl⟩, fun answer => ?_, fun response answer => ?_⟩
  · have codes := congrArg (·.error.code) (idempotentResponse_error answer).2
    simp [workerUnavailable, jobIdConflict, ProviderHttpError.new, jobError] at codes
  · obtain ⟨-, rfl⟩ := idempotentResponse_ok answer
    rfl

theorem declined_error {possible calls : List JobCall} (sub : calls.Sublist possible)
    {e : ProviderHttpError} (status : e.status ≠ 503) :
    Declined codec s possible (.error e, s.afterCalls codec calls) := by
  refine ⟨⟨calls, sub, rfl⟩, fun answer => ?_, fun response answer => ?_⟩
  · exact status (congrArg (·.status) (Except.error.inj answer))
  · cases answer

theorem Declined.after {possible before calls : List JobCall}
    {outcome : Except ProviderHttpError JobResponse × JobStore}
    (declined : Declined codec (s.afterCalls codec before) possible outcome)
    (sub : (before ++ possible).Sublist calls) : Declined codec s calls outcome where
  others := by
    obtain ⟨later, inside, left⟩ := declined.others
    refine ⟨before ++ later, (List.Sublist.append_left inside before).trans sub, ?_⟩
    rw [left, afterCalls_append]
  spared := declined.spared
  replayed := declined.replayed

theorem afterAdmissionRace_answer (reach : (jobMachine codec).Reachable s)
    (around : Surroundings) :
    Truthful codec version admission (afterAdmissionRace codec around version admission s) ∧
    Declined codec s (around.others 3 ++ around.others 4)
      (afterAdmissionRace codec around version admission s) := by
  have reach₃ := reach.extend (run_afterJobCalls codec s (around.others 3))
  have reach₄ := reach₃.extend (run_afterJobCalls codec _ (around.others 4))
  unfold afterAdmissionRace
  dsimp only
  cases found : getJob (s.afterCalls codec (around.others 3)) admission.request.jobId with
  | error e =>
      exact ⟨truthful_error reach₃ (by decide),
        declined_error (List.sublist_append_left _ _) (by decide)⟩
  | ok answer =>
      cases answer with
      | some existing =>
          exact ⟨truthful_replay reach₃ found,
            declined_replay (List.sublist_append_left _ _) existing _⟩
      | none =>
          dsimp only
          rw [afterCalls_append] at reach₄ ⊢
          split
          · next active =>
              exact ⟨truthful_busy reach₄ active _,
                declined_error (List.Sublist.refl _) (ne_of_beq_false rfl)⟩
          · exact ⟨truthful_error reach₄ (by decide),
              declined_error (List.Sublist.refl _) (by decide)⟩

theorem startWorker_truthful (reach : (jobMachine codec).Reachable s) (around : Surroundings)
    (now : DateTime) {accepted : StoredConnectJob} (mem : accepted ∈ s.connectJobs)
    (key : accepted.jobId = admission.request.jobId)
    (same : existingRequestMatches accepted admission.requestHash version = true) :
    Truthful codec version admission (startWorker codec around now accepted s) ∧
    ((startWorker codec around now accepted s).1 = .ok ⟨202, accepted⟩ ∨
      (startWorker codec around now accepted s).1 = .error workerUnavailable ∧
      ∀ job ∈ (startWorker codec around now accepted s).2.connectJobs,
        job.jobId = admission.request.jobId → job.active = false) := by
  unfold startWorker
  split
  · refine ⟨⟨reach, ?_, ?_, ?_⟩, .inl rfl⟩
    · intro response answer
      obtain rfl := Except.ok.inj answer
      exact ⟨mem, key, same⟩
    · intro answer
      cases answer
    · intro message answer
      cases answer
  · dsimp only
    have reach₅ := reach.extend (run_afterJobCalls codec s (around.others 5))
    generalize s.afterCalls codec (around.others 5) = u at reach₅ ⊢
    generalize jobError "PROVIDER_WORKER_UNAVAILABLE"
      "The provider could not start the job worker." true = reason
    have failed := reach₅.next (a := JobCall.markFailed now accepted.jobId reason) rfl
    refine ⟨truthful_error failed (by decide), .inr ⟨rfl, ?_⟩⟩
    intro job inside jobKey
    exact markFailed_settles (ledger_of_reachable reach₅) inside (jobKey.trans key.symm)

theorem row_matches (speaks : admission.request.protocolVersion = version.protocolVersion)
    (runId : String) (now : DateTime) :
    existingRequestMatches (admission.row runId now) admission.requestHash version = true := by
  simp [existingRequestMatches, JobAdmission.row, speaks]

end Answers

/-- A request that was accepted, live and entitled at both checks. -/
structure Accepted (around : Surroundings) (now : DateTime) (admission : JobAdmission)
    (outcome : Except ProviderHttpError JobResponse × JobStore) : Prop where
  checked : ∀ check < 2, around.live check = true ∧ around.entitled check = true
  started : outcome.1 = .ok ⟨202, admission.row admission.run.runId now⟩ ∨
    outcome.1 = .error workerUnavailable ∧ ∀ job ∈ outcome.2.connectJobs,
      job.jobId = admission.request.jobId → job.active = false

/-- The acceptance, from the moment no other job was seen active. -/
theorem acceptance_answer {codec : Codec} {amb : Ambient} {now : Nat → DateTime}
    {around : Surroundings} {version : WireVersion} {admission : JobAdmission} {s : JobStore}
    (reach : (jobMachine codec).Reachable s)
    (speaks : admission.request.protocolVersion = version.protocolVersion) :
    let outcome := match acceptJobWithIngestionGuarded amb (now 0) admission
        (fun check => around.live check && around.entitled check) s with
      | (.ok (some (_, accepted)), s) => startWorker codec around (now 1) accepted s
      | (.ok none, s) =>
        (.error (if around.live 2 then entitlementRequiredError else requestTimeoutError), s)
      | (.error _, s) => afterAdmissionRace codec around version admission s
    Truthful codec version admission outcome ∧
      (Declined codec s (around.others 3 ++ around.others 4) outcome ∨
        Accepted around (now 0) admission outcome) := by
  dsimp only
  have next := reach.next (a := JobCall.accept amb (now 0) admission
    fun check => around.live check && around.entitled check) rfl
  simp only [JobCall.after] at next
  obtain ⟨ingested, t, accepted, answer⟩ | ⟨refusal, refused, answer⟩ :=
    accept_cases amb (now 0) admission (fun check => around.live check && around.entitled check) s
  · obtain ⟨first, second, -, -, acceptable, rows⟩ := acceptInTransaction_ok codec accepted
    rw [answer] at next
    have ledger := ledger_of_reachable next
    have mem : admission.row admission.run.runId (now 0) ∈ t.connectJobs := by
      rw [rows]
      exact List.mem_append_right _ (List.mem_singleton.mpr rfl)
    have read := ledger.getJob_some.mpr ⟨mem, rfl⟩
    have readBack_eq : readBack t admission.request.jobId
        "accepted job was not readable after commit" =
        .ok (admission.row admission.run.runId (now 0)) := by
      change getJob t admission.request.jobId = _ at read
      simp only [readBack, read]
      rfl
    rw [answer, readBack_eq]
    obtain ⟨truthful, started⟩ := startWorker_truthful next around (now 1) mem rfl
      (row_matches speaks admission.run.runId (now 0))
    refine ⟨truthful, .inr ⟨?_, started⟩⟩
    intro check early
    rw [Bool.and_eq_true] at first second
    interval_cases check
    · exact first
    · exact second
  · rw [answer]
    cases refusal with
    | error e =>
        obtain ⟨truthful, declined⟩ :=
          @afterAdmissionRace_answer codec version admission s reach around
        exact ⟨truthful, .inl declined⟩
    | ok result =>
        cases result with
        | some result => exact absurd rfl (refused result)
        | none =>
            dsimp only
            have none : ∀ e : ProviderHttpError, e.status ≠ 503 → Declined codec s
                (around.others 3 ++ around.others 4) (.error e, s) := by
              intro e status
              exact declined_error (List.nil_sublist _) status
            split
            · exact ⟨truthful_error reach (by decide), .inl (none _ (by decide))⟩
            · exact ⟨truthful_error reach (by decide), .inl (none _ (by decide))⟩

/-- Whatever other calls commit between an admission's own reads and writes, its answer is
true of the database it leaves, and a request that it declines has changed nothing. -/
theorem admission_answers_are_true {codec : Codec} {amb : Ambient} {now : Nat → DateTime}
    {around : Surroundings} {version : WireVersion} {admission : JobAdmission} {s : JobStore}
    (reach : (jobMachine codec).Reachable s)
    (speaks : admission.request.protocolVersion = version.protocolVersion) :
    let outcome := admitReceivedJob codec amb now around version admission s
    Truthful codec version admission outcome ∧
      (Declined codec s ((List.range 5).flatMap around.others) outcome ∨
        Accepted around (now 0) admission outcome) := by
  have possible : (List.range 5).flatMap around.others =
      (around.others 0 ++ around.others 1) ++ around.others 2 ++
        (around.others 3 ++ around.others 4) := by
    simp [List.range_succ]
  have reach₀ := reach.extend (run_afterJobCalls codec s (around.others 0))
  have reach₁ := reach₀.extend (run_afterJobCalls codec _ (around.others 1))
  rw [possible]
  have zero : (around.others 0).Sublist (around.others 0 ++ around.others 1 ++ around.others 2 ++
      (around.others 3 ++ around.others 4)) := by
    rw [List.append_assoc, List.append_assoc]
    exact List.sublist_append_left _ _
  unfold admitReceivedJob
  dsimp only
  cases found : getJob (s.afterCalls codec (around.others 0)) admission.request.jobId with
  | error e => exact ⟨truthful_error reach₀ (by decide), .inl (declined_error zero (by decide))⟩
  | ok known =>
    cases known with
    | some existing =>
        exact ⟨truthful_replay reach₀ found, .inl (declined_replay zero existing _)⟩
    | none =>
        dsimp only
        rw [afterCalls_append] at reach₁ ⊢
        split
        · next active =>
            refine ⟨truthful_busy reach₁ active _, .inl (declined_error ?_ (ne_of_beq_false rfl))⟩
            rw [List.append_assoc]
            exact List.sublist_append_left _ _
        · have reach₂ := reach₁.extend (run_afterJobCalls codec _ (around.others 2))
          rw [afterCalls_append] at reach₂ ⊢
          obtain ⟨truthful, answer⟩ := @acceptance_answer codec amb now around version admission _
            reach₂ speaks
          refine ⟨truthful, ?_⟩
          cases answer with
          | inl declined => exact .inl (declined.after (List.Sublist.refl _))
          | inr accepted => exact .inr accepted

/-- Surroundings in which nobody else calls and nothing is refused. -/
def quietSurroundings : Surroundings :=
  ⟨fun _ => [], fun _ => true, fun _ => true, true⟩

/-- The same request is accepted from another connection after the check for active jobs. -/
def racingSurroundings : Surroundings :=
  { quietSurroundings with others := fun point => if point = 2 then [sampleAcceptance] else [] }

theorem raced_admission_is_replayed :
    let outcome := admitReceivedJob sampleCodec (sampleAmbient 1) (fun _ => 0) racingSurroundings
      .v2 sampleAdmission .empty
    ∃ response, outcome.1 = .ok response ∧ response.status = 200 ∧
      response.job ∈ outcome.2.connectJobs := by
  intro outcome
  have speaks : sampleAdmission.request.protocolVersion = WireVersion.v2.protocolVersion := rfl
  obtain ⟨truthful, -⟩ := @admission_answers_are_true sampleCodec (sampleAmbient 1) (fun _ => 0)
    racingSurroundings .v2 sampleAdmission .empty (reachable_afterJobCalls sampleCodec []) speaks
  have replayed : outcome.1.toOption.map (·.status) = some 200 := by
    decide +kernel
  cases answer : outcome.1 with
  | error e => simp [answer, Except.toOption] at replayed
  | ok response =>
    simp only [answer, Except.toOption, Option.map_some, Option.some.injEq] at replayed
    exact ⟨response, rfl, replayed, (truthful.answered response answer).1⟩

/-- Once a request was accepted, and whatever was done since, a request of the same job is
answered from that job: it is replayed when it is the same request, it conflicts when it is
another one, and it changes nothing. -/
theorem repeated_request_is_replayed {codec : Codec} {s t : JobStore} {calls : List JobCall}
    {job : StoredConnectJob} (reach : (jobMachine codec).Reachable s)
    (run : (jobMachine codec).Run s calls t) (known : job ∈ s.connectJobs) (amb : Ambient)
    (now : Nat → DateTime) (around : Surroundings) (version : WireVersion)
    {admission : JobAdmission} (again : admission.request.jobId = job.jobId) :
    ∃ current ∈ (t.afterCalls codec (around.others 0)).connectJobs, JobHistory job current ∧
      admitReceivedJob codec amb now around version admission t =
        (if existingRequestMatches job admission.requestHash version then .ok ⟨200, current⟩
          else .error jobIdConflict, t.afterCalls codec (around.others 0)) := by
  have run' := run.append (run_afterJobCalls codec t (around.others 0))
  obtain ⟨kept, added, rows, history, -⟩ := job_history_is_kept reach run'
  obtain ⟨current, inside, changed⟩ := forall₂_left_exists history known
  have mem : current ∈ (t.afterCalls codec (around.others 0)).connectJobs := by
    rw [rows]
    exact List.mem_append_left _ inside
  have ledger := ledger_of_reachable (reach.extend run')
  have found := ledger.getJob_some.mpr ⟨mem, changed.same.jobId.trans again.symm⟩
  have same : existingRequestMatches current admission.requestHash version =
      existingRequestMatches job admission.requestHash version := by
    simp only [existingRequestMatches, changed.same.protocolVersion, changed.same.requestHash]
  refine ⟨current, mem, changed, ?_⟩
  simp only [admitReceivedJob, found, idempotentResponse, same]

theorem repeated_sample_is_replayed : ∃ response,
    (admitReceivedJob sampleCodec (sampleAmbient 1) (fun _ => 9) quietSurroundings .v2
      sampleAdmission acceptedJobs).1 = .ok response ∧ response.status = 200 := by
  have known : sampleAdmission.row "root" 0 ∈ acceptedJobs.connectJobs := by
    rw [acceptedJobs_rows]
    exact List.mem_singleton.mpr rfl
  obtain ⟨current, -, -, answer⟩ := repeated_request_is_replayed reachable_acceptedJobs
    .nil known (sampleAmbient 1) (fun _ => 9) quietSurroundings .v2
    (rfl : sampleAdmission.request.jobId = "job")
  exact ⟨⟨200, current⟩, congrArg Prod.fst answer, rfl⟩

end DocumentSummarizer.Connect
