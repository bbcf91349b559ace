import DocumentSummarizer.Ocr.HandoffSafety

/-! # The programs of the consumer

Each program keeps the discipline, by one lemma per program.  A loop goes by
induction on its rounds, the recovery by induction on the handoffs it was given.
-/

namespace DocumentSummarizer.Ocr

open Library Pipeline Consumer

variable {platform : OcrPlatform} {w x : HandoffWorld} {k : Nat} {handoff : OcrHandoff}
  {provider : LiveOcrProvider} {rounds : Nat}

/-! ## Single statements -/

theorem achieves_reload (known : Known platform handoff w) :
    Achieves platform k (reload handoff.handoffId)
      (fun current x => Known platform current x ∧ SameOwner handoff current) w := by
  apply achieves_query stable_known known
  · exact fun _ => stable_known.and Discipline.stable_const
  · intro answer x current inv known found
    obtain ⟨mem, same⟩ := mem_of_getOcrHandoff (okOrElse_eq_ok.mp found)
    exact ⟨known_of_mem mem, (known.row inv.keyed mem same).owner⟩

theorem behaves_fail {handoffId : String} {expected : OcrPhase} {code message : String}
    {retryable : Bool} (unadmitted : isAdmitted expected = false) :
    Behaves platform k (fail platform handoffId expected code message retryable) w := by
  apply behaves_update
  intro answer x r t inv done
  exact allows_fail answer.ambient inv (List.suffix_refl _) done
    fun _ _ _ phase _ => phase ▸ unadmitted

theorem behaves_refusal {α : Type} {handoffId : String} {expected : OcrPhase}
    {code message : String} {retryable : Bool} {e : OcrConsumerError}
    (unadmitted : isAdmitted expected = false) (inv : HandoffInvariant platform w) :
    Behaves platform k (do
      let _ ← fail platform handoffId expected code message retryable
      (Process.fail e : Consumer α)) w := by
  apply (behaves_fail unadmitted).achieves.bind inv
  intro _ x inv _
  exact achieves_fail

theorem behaves_transition {handoffId : String} {expected next : OcrPhase}
    (edge : Edge expected next) (from_early : isEarly expected = true)
    (to_early : isEarly next = true) :
    Behaves platform k (transition platform handoffId expected next) w := by
  apply behaves_update
  intro answer x r t inv done
  apply allows_transition answer.ambient inv (List.suffix_refl _) done
  intro h mem same phase
  subst phase
  exact rowStep_submission edge from_early to_early

/-! ## Cancellation -/

theorem behaves_cancelHandoff (inv : HandoffInvariant platform w)
    (known : Known platform handoff w) :
    Behaves platform k (cancelHandoff platform rounds handoff) w := by
  induction rounds generalizing handoff w with
  | zero => exact behaves_outOfRounds
  | succ rounds ih =>
      have cancels : isAdmitted handoff.phase = false →
          Behaves platform k (do
            let changed ← fail platform handoff.handoffId handoff.phase "OCR_CANCELLED"
              "OCR processing was cancelled before child admission" false
            if changed then
              Process.fail .cancelled
            else
              let current ← reload handoff.handoffId
              cancelHandoff platform rounds current) w := by
        intro unadmitted
        apply (behaves_fail unadmitted).achieves.andThen inv known
        intro changed x inv known _
        cases changed with
        | true => exact achieves_fail
        | false =>
            apply (achieves_reload known).bind inv
            intro current y inv read
            exact ih inv read.1
      unfold cancelHandoff
      cases phase : handoff.phase with
      | childAdmitted | completed => exact behaves_pure
      | failed => exact achieves_fail
      | prepared | submissionUncertain | running | outputReady =>
          rw [phase] at cancels
          exact cancels rfl

theorem behaves_cancellationCheckpoint (inv : HandoffInvariant platform w)
    (known : Known platform handoff w) :
    Behaves platform k (cancellationCheckpoint platform rounds handoff) w := by
  apply behaves_query.achieves.andThen inv known
  intro requested x inv known _
  cases requested with
  | true => exact behaves_cancelHandoff inv known
  | false => exact behaves_pure

theorem behaves_waitForRetry (inv : HandoffInvariant platform w)
    (known : Known platform handoff w) :
    Behaves platform k (waitForRetry platform rounds handoff) w := by
  induction rounds generalizing w with
  | zero => exact behaves_outOfRounds
  | succ rounds ih =>
      apply achieves_ask.andThen inv known
      intro expired x inv known _
      cases expired with
      | true => exact behaves_pure
      | false =>
          apply (behaves_cancellationCheckpoint inv known).achieves.andThen inv known
          intro _ y inv known _
          exact ih inv known

/-! ## Retrieval -/

/-- What the transport may have brought for this provider. -/
def Brought (provider : LiveOcrProvider) (platform : OcrPlatform) :
    Except TransportError ReceivedStatus → Prop
  | .ok (.inline _) => provider.protocolVersion = 2
  | .ok (.streamed status) => Decoded platform status
  | .error _ => True

variable {response : Except TransportError ReceivedStatus}

theorem brought_of_answer {answer : Answer}
    (h : (do
      let response ← answer.response
      answerFor platform.serde provider.protocolVersion response) = response) :
    Brought provider platform response := by
  subst h
  cases answer.response with
  | error e => trivial
  | ok response =>
      change Brought provider platform
        (answerFor platform.serde provider.protocolVersion response)
      unfold answerFor
      split
      · next two =>
          cases Ocr.answer platform.serde response with
          | error e => trivial
          | ok status => exact two
      · split
        · cases found : streamedAnswer platform.serde response with
          | error e => trivial
          | ok status =>
              simp only [streamedAnswer, peel_ok] at found
              obtain ⟨bytes, -, found⟩ := found
              split at found
              · exact statusFromValue_of_decodeMetadata (mapError_ok_iff.mp found)
              · obtain ⟨_, -, found⟩ := peel_ok.mp found
                cases found
        · trivial

theorem achieves_exchange :
    Achieves platform k (exchange platform provider)
      (fun response _ => Brought provider platform response) w := by
  apply achieves_ask.weaken
  · intro response x _ asked
    obtain ⟨answer, read⟩ := asked
    exact brought_of_answer (Except.ok.inj read)
  · exact fun _ _ _ _ => trivial

theorem behaves_refreshProvider (inv : HandoffInvariant platform w) :
    Behaves platform k (refreshProvider platform provider) w := by
  apply achieves_ask.bind inv
  intro refreshed x inv _
  split
  · exact achieves_fail
  · exact behaves_pure

theorem achieves_confirm :
    Achieves platform k (do
      let status ← Process.lift (confirmCompletion platform handoff response)
      pure (provider, status) : Consumer (LiveOcrProvider × Status))
      (fun found _ => Confirmed platform handoff found.2) w := by
  cases confirmed : confirmCompletion platform handoff response with
  | error e => exact achieves_fail
  | ok status =>
      have known := confirmed_of_ok confirmed
      exact fun _ _ _ => known

theorem achieves_reconcile (inv : HandoffInvariant platform w) :
    Achieves platform k (reconcile platform handoff provider)
      (fun found _ => Confirmed platform handoff found.2) w := by
  apply achieves_exchange.bind inv
  intro response x inv _
  split
  · apply (behaves_refreshProvider inv).achieves.bind inv
    intro refreshed y inv _
    apply achieves_exchange.bind inv
    intro response z inv _
    exact achieves_confirm
  · exact achieves_confirm

theorem behaves_attemptOutput {descriptor : Descriptor} (inv : HandoffInvariant platform w)
    (known : Known platform handoff w) :
    Behaves platform k (attemptOutput platform rounds handoff descriptor) w := by
  apply (behaves_cancellationCheckpoint inv known).achieves.andThen inv known
  intro _ x inv known _
  exact achieves_ask.behaves

theorem behaves_fetchOutput {descriptor : Descriptor} {retries : Nat}
    (inv : HandoffInvariant platform w) (known : Known platform handoff w) :
    Behaves platform k (fetchOutput platform rounds handoff descriptor retries provider) w := by
  induction retries generalizing provider w with
  | zero =>
      unfold fetchOutput
      apply (behaves_attemptOutput inv known).achieves.andThen inv known
      intro result x inv known _
      cases result with
      | ok _ => exact behaves_pure
      | error e => exact achieves_fail
  | succ retries ih =>
      unfold fetchOutput
      apply (behaves_attemptOutput inv known).achieves.andThen inv known
      intro result x inv known _
      have waits : ∀ {provider : LiveOcrProvider} {z}, HandoffInvariant platform z →
          Known platform handoff z → Behaves platform k (do
            waitForRetry platform rounds handoff
            fetchOutput platform rounds handoff descriptor retries provider) z := by
        intro provider z inv known
        apply (behaves_waitForRetry inv known).achieves.andThen inv known
        intro _ z inv known _
        exact ih inv known
      cases result with
      | ok _ => exact behaves_pure
      | error e =>
          cases e with
          | unauthorized =>
              apply (behaves_refreshProvider inv).achieves.andThen inv known
              intro refreshed z inv known _
              apply (achieves_reconcile inv).andThen inv known
              intro found z inv known _
              exact waits inv known
          | uncertain message => exact waits inv known
          | _ => exact achieves_fail

theorem achieves_readBack {descriptor : Descriptor} :
    Achieves platform k (readBack platform descriptor)
      (fun content _ => verifiedContent platform descriptor content = .ok content) w := by
  apply achieves_ask.weaken
  · intro content x _ asked
    obtain ⟨answer, read⟩ := asked
    simp only [peel_ok, mapError_ok_iff] at read
    obtain ⟨found, -, verified⟩ := read
    have same := verified
    simp only [verifiedContent, peel_ok, return_ok] at same
    obtain ⟨_, -, rfl⟩ := same
    exact verified
  · exact fun _ _ _ _ => trivial

/-- The pair is stored only when it is the one the saved completion describes. -/
theorem behaves_retrieveVerified {request : JobRequest} (inv : HandoffInvariant platform w)
    (known : Known platform handoff w)
    (requested : validateSavedRequest platform handoff = .ok request)
    (completed : hasSavedCompletion platform handoff = .ok true)
    (running : handoff.phase = .running) :
    Behaves platform k (retrieveVerified platform rounds handoff provider) w := by
  apply (achieves_reconcile inv).andThen inv known
  intro found x inv known confirmed
  apply achieves_checked.andThen inv known
  intro both x inv known paired
  apply (behaves_fetchOutput inv known).achieves.andThen inv known
  intro _ x inv known _
  apply (behaves_fetchOutput inv known).achieves.andThen inv known
  intro _ x inv known _
  apply (behaves_cancellationCheckpoint inv known).achieves.andThen inv known
  intro _ x inv known _
  apply achieves_readBack.andThen inv known
  intro pdfBytes x inv known pdf
  apply achieves_readBack.andThen inv known
  intro textBytes x inv known text
  apply achieves_checked.andThen inv known
  intro _ x inv known _
  apply (behaves_cancellationCheckpoint inv known).achieves.andThen inv known
  intro _ x inv known _
  have retrieved : Retrieved platform handoff both.1 both.2 pdfBytes textBytes :=
    ⟨⟨request, requested⟩, completed, ⟨found.2, confirmed, paired⟩, pdf, text⟩
  have stores : Behaves platform k (update fun _ => storeOcrOutputs platform.codec
      handoff.handoffId handoff.phase
      (retrievedOutput handoff both.1 both.2 pdfBytes textBytes)) x := by
    apply achieves_update stable_known known fun _ => Discipline.stable_const
    intro answer y r t inv known done
    refine ⟨?_, trivial⟩
    apply allows_store answer.ambient inv (List.suffix_refl _) done
    intro h mem same phase
    exact rowStep_retrieved retrieved (known.row inv.keyed mem same) (phase.trans running)
  apply stores.achieves.bind inv
  intro _ y inv _
  exact behaves_pure

theorem behaves_retrieve (inv : HandoffInvariant platform w) (known : Known platform handoff w)
    (completed : hasSavedCompletion platform handoff = .ok true)
    (running : handoff.phase = .running) :
    Behaves platform k (retrieve platform rounds handoff provider) w := by
  have verifies : Behaves platform k (do
      let _ ← checked (validateSavedRequest platform handoff)
      retrieveVerified platform rounds handoff provider) w := by
    apply achieves_checked.andThen inv known
    intro request x inv known requested
    exact behaves_retrieveVerified inv known requested completed running
  apply (behaves_attempt verifies).achieves.andThen inv known
  intro result x inv known _
  apply (behaves_cancellationCheckpoint inv known).achieves.andThen inv known
  intro _ x inv known _
  split
  · exact behaves_refusal (by rw [running]; rfl) inv
  · exact achieves_lift.behaves

/-! ## The runner -/

/-- The provider speaks the protocol of the saved request. -/
def Speaks (platform : OcrPlatform) (provider : LiveOcrProvider) (handoff : OcrHandoff) : Prop :=
  savedProtocol platform handoff = .ok provider.protocolVersion

theorem fitting_of_brought {status : ReceivedStatus} (speaks : Speaks platform provider handoff)
    (brought : Brought provider platform (.ok status)) : Fitting platform handoff status := by
  cases status with
  | streamed status => exact brought
  | inline status =>
      intro streamed
      have three := speaks.symm.trans streamed.protocol
      have two : provider.protocolVersion = 2 := brought
      rw [two] at three
      cases three

section

variable (inv : HandoffInvariant platform w)

include inv

theorem behaves_materializeDerived :
    Behaves platform k (materializeDerived platform handoff) w := by
  apply achieves_checked.bind inv
  intro _ x inv _
  exact achieves_ask.behaves

theorem behaves_admitChild
    (known : Known platform handoff w) :
    Behaves platform k (admitChild platform handoff) w := by
  apply achieves_checked.andThen inv known
  intro pdf x inv known _
  apply achieves_update stable_known known fun _ => Discipline.stable_const
  intro answer y result t inv known done
  exact ⟨allows_admission inv known done, trivial⟩

theorem behaves_applied {status : ReceivedStatus}
    (known : Known platform handoff w) (fitting : Fitting platform handoff status) :
    Behaves platform k (do
      applyStatus platform handoff status
      pure (none : Option String)) w := by
  apply (behaves_applyStatus known fitting).achieves.bind inv
  intro _ x inv _
  exact behaves_pure

theorem behaves_settleSubmission
    (known : Known platform handoff w)
    (speaks : Speaks platform provider handoff) (brought : Brought provider platform response) :
    Behaves platform k (settleSubmission platform handoff response) w := by
  cases response with
  | ok status => exact behaves_applied inv known (fitting_of_brought speaks brought)
  | error e =>
      cases e with
      | refused message retryable =>
          exact behaves_refusal rfl inv
      | uncertain message => exact behaves_pure
      | _ => exact achieves_fail

end

theorem Speaks.congr {current : OcrHandoff} (h : Speaks platform provider handoff)
    (same : SameOwner handoff current) : Speaks platform provider current :=
  (same.protocol platform).symm.trans h

section

variable (inv : HandoffInvariant platform w)

include inv

section

variable (known : Known platform handoff w)

include known

section

variable (speaks : Speaks platform provider handoff)

include speaks

theorem behaves_submitPrepared
    :
    Behaves platform k (submitPrepared platform rounds handoff provider) w := by
  unfold submitPrepared
  cases validateSavedRequest platform handoff with
  | error message =>
      exact behaves_refusal rfl inv
  | ok request =>
      apply (behaves_transition .submit rfl rfl).achieves.andThen inv known
      intro marked x inv known _
      cases marked with
      | false => exact behaves_pure
      | true =>
          apply (achieves_reload known).bind inv
          intro current x inv read
          apply achieves_exchange.andThen inv read.1
          intro submitted x inv known brought
          apply (behaves_cancellationCheckpoint inv known).achieves.andThen inv known
          intro _ x inv known _
          exact behaves_settleSubmission inv known (speaks.congr read.2) brought

theorem behaves_pollUncertain
    :
    Behaves platform k (pollUncertain platform rounds handoff provider) w := by
  apply achieves_exchange.andThen inv known
  intro response x inv known brought
  apply (behaves_cancellationCheckpoint inv known).achieves.andThen inv known
  intro _ x inv known _
  cases response with
  | ok status => exact behaves_applied inv known (fitting_of_brought speaks brought)
  | error e =>
      cases e with
      | notFound =>
          apply (behaves_transition .resubmit rfl rfl).achieves.bind inv
          intro _ x inv _
          exact behaves_pure
      | uncertain message => exact behaves_pure
      | _ => exact achieves_fail

theorem behaves_pollRunning
    :
    Behaves platform k (pollRunning platform rounds handoff provider) w := by
  apply achieves_exchange.andThen inv known
  intro response x inv known brought
  apply (behaves_cancellationCheckpoint inv known).achieves.andThen inv known
  intro _ x inv known _
  cases response with
  | ok status => exact behaves_applied inv known (fitting_of_brought speaks brought)
  | error e =>
      cases e with
      | uncertain message => exact behaves_pure
      | _ => exact achieves_fail

theorem behaves_continueRunning
    (running : handoff.phase = .running) :
    Behaves platform k (continueRunning platform rounds handoff provider) w := by
  apply achieves_checked.andThen inv known
  intro completed x inv known found
  cases completed with
  | false => exact behaves_pollRunning inv known speaks
  | true =>
      apply (behaves_retrieve inv known found running).achieves.bind inv
      intro _ x inv _
      exact behaves_pure

theorem behaves_turn
    :
    Behaves platform k (turn platform rounds handoff provider) w := by
  unfold turn
  cases phase : handoff.phase with
  | prepared => exact behaves_submitPrepared inv known speaks
  | submissionUncertain => exact behaves_pollUncertain inv known speaks
  | running => exact behaves_continueRunning inv known speaks phase
  | outputReady =>
      apply (behaves_materializeDerived inv).achieves.andThen inv known
      intro _ x inv known _
      apply (behaves_admitChild inv known).achieves.bind inv
      intro _ x inv _
      exact behaves_pure
  | childAdmitted | completed =>
      apply (behaves_materializeDerived inv).achieves.bind inv
      intro _ x inv _
      exact behaves_pure
  | failed => exact achieves_fail

theorem behaves_runHandoffUntil
    :
    Behaves platform k (runHandoffUntil platform provider rounds handoff) w := by
  induction rounds generalizing handoff w with
  | zero => exact behaves_outOfRounds
  | succ rounds ih =>
      apply (behaves_cancellationCheckpoint inv known).achieves.andThen inv known
      intro _ x inv known _
      apply achieves_ask.andThen inv known
      intro _ x inv known _
      apply (behaves_turn inv known speaks).achieves.andThen inv known
      intro admitted x inv known _
      cases admitted with
      | some child => exact behaves_pure
      | none =>
          apply (achieves_reload known).bind inv
          intro current x inv read
          exact ih inv read.1 (speaks.congr read.2)

end

theorem behaves_failInvalid {message : String}
    :
    Behaves platform k (failInvalid platform handoff.handoffId message) w := by
  apply (achieves_reload known).bind inv
  intro current x inv _
  split
  · next waiting =>
      have unadmitted : isAdmitted current.phase = false := by
        rcases waiting with phase | phase | phase <;> rw [phase] <;> rfl
      apply (behaves_fail unadmitted).achieves.bind inv
      intro _ x inv _
      exact behaves_pure
  · exact behaves_pure

theorem behaves_runHandoff
    (speaks : Speaks platform provider handoff) :
    Behaves platform k (runHandoff platform rounds handoff provider) w := by
  apply (behaves_attempt (behaves_runHandoffUntil inv known speaks)).achieves.andThen inv known
  intro result x inv known _
  split
  · split
    · apply (behaves_failInvalid inv known).achieves.bind inv
      intro _ x inv _
      exact achieves_fail
    · exact achieves_fail
  · exact achieves_lift.behaves

end

end

/-! ## Starting a handoff -/

theorem achieves_preparedRow {admission : Answer → NewOcrHandoff} :
    Achieves platform k (update fun a s => do
      let (handoff, t) ← prepareOcrHandoff platform.codec (admission a) s
      return (((getOcrHandoffForRoot s (admission a).rootRunId).isSome, handoff), t))
      (fun inserted x => Known platform inserted.2 x) w := by
  apply achieves_update (P := fun _ => True) Discipline.stable_const trivial
    fun _ => stable_known
  intro answer x result t inv _ done
  simp only [peel_ok, return_ok] at done
  obtain ⟨⟨row, u⟩, prepared, done⟩ := done
  cases done
  obtain ⟨allowed, mem⟩ := allows_prepare answer.ambient inv prepared
  exact ⟨allowed, known_of_mem mem⟩

theorem achieves_insertHandoff {admission : Answer → NewOcrHandoff}
    (inv : HandoffInvariant platform w) :
    Achieves platform k (insertHandoff platform admission) (Known platform) w := by
  apply achieves_preparedRow.bind inv
  intro inserted x inv known
  obtain ⟨existed, row⟩ := inserted
  cases existed with
  | true => exact Discipline.sat_pure stable_known known
  | false =>
      change Achieves platform k (query fun _ s => okOrElse (getOcrHandoff s row.handoffId) _)
        (Known platform) x
      apply achieves_query (P := fun _ => True) Discipline.stable_const trivial
        fun _ => stable_known
      intro answer y current inv _ found
      exact known_of_mem (mem_of_getOcrHandoff (okOrElse_eq_ok.mp found)).1

variable {rootRunId : String}

theorem achieves_prepareHandoff (inv : HandoffInvariant platform w) :
    Achieves platform k (prepareHandoff platform rootRunId provider) (Known platform) w := by
  apply behaves_query.achieves.bind inv
  intro root x inv _
  apply behaves_query.achieves.bind inv
  intro document x inv _
  apply achieves_ask.bind inv
  intro source x inv _
  apply achieves_checked.bind inv
  intro _ x inv _
  exact achieves_insertHandoff inv

theorem achieves_lookup :
    Achieves platform k (query fun _ s => .ok (getOcrHandoffForRoot s rootRunId))
      (fun existing x => ∀ handoff, existing = some handoff → Known platform handoff x) w := by
  apply achieves_query (P := fun _ => True) Discipline.stable_const trivial
  · intro existing s t inv frame known handoff same
    exact (known handoff same).later frame
  · intro answer x existing inv _ read handoff same
    cases read
    exact known_of_mem (mem_of_getOcrHandoffForRoot same).1

section

variable (inv : HandoffInvariant platform w)

include inv

theorem behaves_owned
    (known : Known platform handoff w) :
    Behaves platform k (if handoff.providerAppId ≠ provider.appId ∨
        handoff.providerInstanceId ≠ provider.instanceId then
      Process.fail (.providerUnavailable handoff.providerInstanceId)
    else do
      let protocol ← checked (savedProtocol platform handoff)
      if protocol ≠ provider.protocolVersion then
        Process.fail (.providerUnavailable handoff.providerInstanceId)
      else
        runHandoff platform rounds handoff provider) w := by
  split
  · exact achieves_fail
  · apply achieves_checked.andThen inv known
    intro protocol x inv known saved
    split
    · exact achieves_fail
    · next same =>
        obtain rfl := not_not.mp same
        exact behaves_runHandoff inv known saved

theorem behaves_processScannedDocumentWith
    :
    Behaves platform k (processScannedDocumentWith platform rounds rootRunId provider) w := by
  apply achieves_lookup.bind inv
  intro existing x inv known
  cases existing with
  | some handoff => exact behaves_owned inv (known handoff rfl)
  | none =>
      apply (achieves_prepareHandoff inv).bind inv
      intro handoff x inv known
      exact behaves_owned inv known

theorem behaves_processScannedDocument :
    Behaves platform k (processScannedDocument platform rounds rootRunId) w := by
  apply achieves_lookup.bind inv
  intro existing x inv known
  cases existing with
  | some handoff =>
      apply (behaves_cancellationCheckpoint inv (known handoff rfl)).achieves.bind inv
      intro _ x inv _
      apply achieves_checked.bind inv
      intro protocol x inv _
      apply achieves_ask.bind inv
      intro provider x inv _
      exact behaves_processScannedDocumentWith inv
  | none =>
      apply behaves_query.achieves.bind inv
      intro requested x inv _
      cases requested with
      | true => exact achieves_fail
      | false =>
          apply achieves_ask.bind inv
          intro provider x inv _
          exact behaves_processScannedDocumentWith inv

/-! ## Restart recovery -/

theorem behaves_recoverOne {providers : List LiveOcrProvider}
    (known : Known platform handoff w) :
    Behaves platform k (recoverOne platform rounds providers handoff) w := by
  apply (behaves_cancellationCheckpoint inv known).achieves.andThen inv known
  intro _ x inv known _
  split
  · apply (behaves_materializeDerived inv).achieves.bind inv
    intro _ x inv _
    exact behaves_pure
  · split
    · next provider found =>
        have chosen := List.find?_some found
        simp only [Bool.and_eq_true, beq_iff_eq] at chosen
        have speaks : Speaks platform provider handoff := by
          unfold Speaks
          cases saved : savedProtocol platform handoff with
          | error e =>
              rw [saved] at chosen
              cases chosen.2
          | ok protocol =>
              rw [saved] at chosen
              exact congrArg Except.ok (Option.some.inj chosen.2)
        exact behaves_runHandoff inv known speaks
    · exact achieves_fail

theorem behaves_completeRootCancellation
    :
    Behaves platform k (completeRootCancellation platform rootRunId) w := by
  apply behaves_query.achieves.bind inv
  intro root x inv _
  split
  · apply behaves_update
    intro answer y r t inv done
    exact allows_outside inv rfl done
  · exact behaves_pure

theorem behaves_recoverEach {providers : List LiveOcrProvider} {reserved : List String}
    {handoffs : List OcrHandoff} {report : OcrRecoveryReport}
    (known : ∀ handoff ∈ handoffs, Known platform handoff w) :
    Behaves platform k (recoverEach platform rounds providers reserved handoffs report) w := by
  induction handoffs generalizing report w with
  | nil => exact behaves_pure
  | cons handoff rest ih =>
      unfold recoverEach
      split
      · exact ih inv fun handoff mem => known handoff (List.mem_cons_of_mem _ mem)
      · have others : ∀ s t, RowsLater platform s.store t.store →
            (∀ handoff ∈ rest, Known platform handoff s) →
            ∀ handoff ∈ rest, Known platform handoff t :=
          fun _ _ later held handoff mem => (held handoff mem).later later
        apply (behaves_attempt (behaves_recoverOne inv (known handoff List.mem_cons_self))).achieves
          |>.holding inv others fun handoff mem => known handoff (List.mem_cons_of_mem _ mem)
        intro result x inv known _
        cases result with
        | ok childRunId => exact ih inv known
        | error e =>
            cases e with
            | cancelled =>
                apply (behaves_completeRootCancellation inv).achieves.holding inv others known
                intro _ y inv known _
                exact ih inv known
            | _ => exact ih inv known

theorem behaves_recoverOcrHandoffs {reserved : List String} :
    Behaves platform k (recoverOcrHandoffs platform rounds reserved) w := by
  apply achieves_ask.bind inv
  intro providers x inv _
  have lists : Achieves platform k (query fun _ s => .ok (listRecoverableOcrHandoffs s))
      (fun handoffs y => ∀ handoff ∈ handoffs, Known platform handoff y) x := by
    apply achieves_query (P := fun _ => True) Discipline.stable_const trivial
    · exact fun _ _ _ _ frame held handoff mem => (held handoff mem).later frame
    · intro answer y handoffs inv _ read handoff mem
      cases read
      exact known_of_mem (List.mem_filter.mp mem).1
  apply lists.bind inv
  intro handoffs x inv known
  apply (behaves_recoverEach inv known).achieves.bind inv
  intro report x inv _
  exact behaves_pure

/-! ## The system -/

theorem behaves_serve {request : Request} :
    Behaves platform k (serve platform request) w := by
  cases request with
  | processScannedDocument rounds rootRunId =>
      apply (behaves_processScannedDocument inv).achieves.bind inv
      intro child x inv _
      exact behaves_pure
  | recoverOcrHandoffs rounds reserved =>
      apply (behaves_recoverOcrHandoffs inv).achieves.bind inv
      intro report x inv _
      exact behaves_pure
  | perform operation outside =>
      have performs : Behaves platform k
          (update fun a => operation.body platform.codec a.ambient) w := by
        apply behaves_update
        intro answer x r t inv done
        exact allows_outside inv outside done
      apply performs.achieves.bind inv
      intro _ x inv _
      exact behaves_pure

end

theorem consumers_keep : (consumers platform).Keeps (handoffDiscipline platform)
    (fun _ _ => True) (fun _ _ _ _ => True) fun _ _ _ _ => True where
  idle_stable _ := Discipline.stable_const
  released _ _ inv := ⟨allows_same inv (List.suffix_refl _), trivial⟩
  programs _ _ _ inv _ := behaves_serve inv

end DocumentSummarizer.Ocr
