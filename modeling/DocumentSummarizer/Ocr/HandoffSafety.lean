import DocumentSummarizer.Ocr.Admission

/-! # The runner keeps the discipline

Every program of the consumer, down to its loops, keeps the discipline of the
handoff table.  What it carries from step to step is that its copy of the handoff
describes a row that is still there.
-/

namespace DocumentSummarizer.Ocr

open Library Pipeline Consumer

variable {platform : OcrPlatform} {w x : HandoffWorld} {k : Nat} {log : List Application}
  {a b handoff : OcrHandoff} {received : ReceivedStatus}

/-! ## What a runner knows -/

/-- The row that was read is there, with all it fixed. -/
def Known (platform : OcrPlatform) (handoff : OcrHandoff) (w : HandoffWorld) : Prop :=
  ∃ row ∈ w.store.ocrHandoffs, RowLater platform handoff row

theorem known_of_mem (mem : handoff ∈ w.store.ocrHandoffs) : Known platform handoff w :=
  ⟨handoff, mem, .refl handoff⟩

theorem Known.later (h : Known platform handoff w)
    (later : RowsLater platform w.store x.store) : Known platform handoff x := by
  obtain ⟨row, mem, before⟩ := h
  obtain ⟨row', mem', after⟩ := later row mem
  exact ⟨row', mem', before.trans after⟩

theorem stable_known : (handoffDiscipline platform).Stable k (Known platform handoff) :=
  fun _ _ _ frame h => h.later frame

theorem Known.row (h : Known platform handoff w) (keyed : Keyed w.store)
    (mem : a ∈ w.store.ocrHandoffs) (same : a.handoffId = handoff.handoffId) :
    RowLater platform handoff a := by
  obtain ⟨row, mem', later⟩ := h
  have own := keyed.unique mem mem' (same.trans later.owner.handoffId)
  exact own ▸ later

/-- The program keeps the discipline and ends where `post` holds. -/
def Achieves (platform : OcrPlatform) (k : Nat) {α : Type} (p : Consumer α)
    (post : α → HandoffWorld → Prop) (w : HandoffWorld) : Prop :=
  (handoffDiscipline platform).Sat k p post (fun _ _ => True) w

/-- The program keeps the discipline. -/
def Behaves (platform : OcrPlatform) (k : Nat) {α : Type} (p : Consumer α)
    (w : HandoffWorld) : Prop :=
  Achieves platform k p (fun _ _ => True) w

section Rules

variable {α β : Type} {post : α → HandoffWorld → Prop}

theorem Achieves.behaves {p : Consumer α} (h : Achieves platform k p post w) :
    Behaves platform k p w :=
  h.weaken (fun _ _ _ _ => trivial) fun _ _ _ _ => trivial

theorem Behaves.achieves {p : Consumer α} (h : Behaves platform k p w) :
    Achieves platform k p (fun _ _ => True) w :=
  h

theorem achieves_fail {e : OcrConsumerError} : Achieves platform k (Process.fail e) post w :=
  Discipline.sat_fail Discipline.stable_const trivial

theorem behaves_pure {result : α} : Behaves platform k (pure result) w :=
  fun _ _ _ => trivial

theorem achieves_lift {result : Except OcrConsumerError α} :
    Achieves platform k (Process.lift result) (fun r _ => result = .ok r) w :=
  Discipline.sat_lift (fun _ ok => ⟨Discipline.stable_const, ok⟩)
    fun _ _ => ⟨Discipline.stable_const, trivial⟩

theorem achieves_checked {result : Except String α} :
    Achieves platform k (checked result) (fun r _ => result = .ok r) w := by
  apply achieves_lift.weaken
  · intro r _ _ ok
    exact mapError_ok_iff.mp ok
  · exact fun _ _ _ _ => trivial

/-- Sequencing; what no step undoes is still there. -/
theorem Achieves.holding {p : Consumer β} {next : β → Consumer α} {mid : β → HandoffWorld → Prop}
    {P : HandoffWorld → Prop} (first : Achieves platform k p mid w)
    (inv : HandoffInvariant platform w)
    (lasts : ∀ s t, RowsLater platform s.store t.store → P s → P t) (holds : P w)
    (rest : ∀ r x, HandoffInvariant platform x → P x → mid r x →
      Achieves platform k (next r) post x) :
    Achieves platform k (p >>= next) post w := by
  have kept : Achieves platform k p (fun r x => mid r x ∧ P x) w := by
    apply (Discipline.Sat.keeping first ?_ ?_ holds).weaken (fun _ _ _ h => h)
    · exact fun _ _ _ _ => trivial
    · exact fun s t _ frame held => lasts s t frame held
    · exact fun s t allowed held => lasts s t allowed.change.later held
  apply Discipline.Sat.bind inv kept
  intro r x inv' ended
  exact rest r x inv' ended.2 ended.1

/-- Sequencing; the copy of the handoff stays good. -/
theorem Achieves.andThen {p : Consumer β} {next : β → Consumer α} {mid : β → HandoffWorld → Prop}
    (first : Achieves platform k p mid w) (inv : HandoffInvariant platform w)
    (known : Known platform handoff w)
    (rest : ∀ r x, HandoffInvariant platform x → Known platform handoff x → mid r x →
      Achieves platform k (next r) post x) :
    Achieves platform k (p >>= next) post w :=
  first.holding inv (fun _ _ later held => held.later later) known rest

theorem Achieves.bind {p : Consumer β} {next : β → Consumer α} {mid : β → HandoffWorld → Prop}
    (first : Achieves platform k p mid w) (inv : HandoffInvariant platform w)
    (rest : ∀ r x, HandoffInvariant platform x → mid r x → Achieves platform k (next r) post x) :
    Achieves platform k (p >>= next) post w :=
  Discipline.Sat.bind inv first rest

theorem behaves_attempt {p : Consumer α} (h : Behaves platform k p w) :
    Behaves platform k p.attempt w :=
  Discipline.Sat.attempt h

theorem behaves_outOfRounds : Behaves platform k (outOfRounds : Consumer α) w :=
  fun _ _ _ _ _ moved => nomatch moved

/-! ## Single steps -/

theorem achieves_ask {read : Answer → Except OcrConsumerError α} :
    Achieves platform k (ask read) (fun r _ => ∃ answer, read answer = .ok r) w := by
  apply Discipline.sat_atomic (P := fun _ => True) Discipline.stable_const trivial
    (fun _ => Discipline.stable_const) fun _ => Discipline.stable_const
  intro answer t inv _
  refine ⟨allows_same inv (List.suffix_refl _), ?_⟩
  cases result : read answer with
  | ok r => exact ⟨answer, result⟩
  | error e => trivial

theorem achieves_query {read : Answer → Store → Except OcrConsumerError α}
    {P : HandoffWorld → Prop} (stable : (handoffDiscipline platform).Stable k P) (h : P w)
    (returns : ∀ r, (handoffDiscipline platform).Stable k (post r))
    (reads : ∀ answer x r, HandoffInvariant platform x → P x → read answer x.store = .ok r →
      post r x) :
    Achieves platform k (query read) post w := by
  apply Discipline.sat_atomic stable h returns fun _ => Discipline.stable_const
  intro answer t inv holds
  cases fault : answer.fault with
  | some error =>
      simp only
      exact ⟨allows_same inv (List.suffix_refl _), trivial⟩
  | none =>
      simp only
      refine ⟨allows_same inv (List.suffix_refl _), ?_⟩
      cases result : read answer t.store with
      | ok r => exact reads answer t r inv holds result
      | error e => trivial

theorem behaves_query {read : Answer → Store → Except OcrConsumerError α} :
    Behaves platform k (query read) w :=
  achieves_query (P := fun _ => True) Discipline.stable_const trivial
    (fun _ => Discipline.stable_const) fun _ _ _ _ _ _ => trivial

theorem achieves_update {body : Answer → Store → Except StoreError (α × Store)}
    {P : HandoffWorld → Prop} (stable : (handoffDiscipline platform).Stable k P) (h : P w)
    (returns : ∀ r, (handoffDiscipline platform).Stable k (post r))
    (commits : ∀ answer x r t, HandoffInvariant platform x → P x →
      body answer x.store = .ok (r, t) →
      (handoffDiscipline platform).Allows k x ⟨t, x.applications⟩ ∧ post r ⟨t, x.applications⟩) :
    Achieves platform k (update body) post w := by
  apply Discipline.sat_atomic stable h returns fun _ => Discipline.stable_const
  intro answer t inv holds
  cases fault : answer.fault with
  | some error =>
      simp only
      exact ⟨allows_same inv (List.suffix_refl _), trivial⟩
  | none =>
      simp only
      cases result : body answer t.store with
      | ok done =>
          obtain ⟨r, s⟩ := done
          exact commits answer t r s inv holds result
      | error e => exact ⟨allows_same inv (List.suffix_refl _), trivial⟩

theorem behaves_update {body : Answer → Store → Except StoreError (α × Store)}
    (commits : ∀ answer x r t, HandoffInvariant platform x → body answer x.store = .ok (r, t) →
      (handoffDiscipline platform).Allows k x ⟨t, x.applications⟩) :
    Behaves platform k (update body) w :=
  achieves_update (P := fun _ => True) Discipline.stable_const trivial
    (fun _ => Discipline.stable_const)
    fun answer x r t inv _ done => ⟨commits answer x r t inv done, trivial⟩

end Rules

/-! ## Statements -/

theorem allows_transition (amb : Ambient) {handoffId : String} {expected next : OcrPhase}
    {status : Option String} {result : Bool} {t : Store} (inv : HandoffInvariant platform w)
    (suffix : w.applications <:+ log)
    (done : transitionOcrHandoff platform.codec handoffId expected next status w.store =
      .ok (result, t))
    (steps : ∀ h ∈ w.store.ocrHandoffs, h.handoffId = handoffId → h.phase = expected →
      RowStep platform (AllTimely log) h
        { h with phase := next, providerStatusJson := status.or h.providerStatusJson }) :
    (handoffDiscipline platform).Allows k w ⟨t, log⟩ := by
  have called := called_of_ok amb (.transitionOcrHandoff handoffId expected next status)
    (discardResult_ok.mpr ⟨result, done⟩)
  simp only [transitionOcrHandoff, peel_ok, return_ok] at done
  obtain ⟨⟨count, u⟩, updated, done⟩ := done
  obtain ⟨-, rfl⟩ := Prod.mk.inj done
  apply allows_update inv updated called suffix
  intro h mem chosen
  simp only [decide_eq_true_eq] at chosen
  exact steps h mem chosen.1 chosen.2

theorem allows_store (amb : Ambient) {handoffId : String} {expected : OcrPhase}
    {output : OcrOutput} {result : Bool} {t : Store} (inv : HandoffInvariant platform w)
    (suffix : w.applications <:+ log)
    (done : storeOcrOutputs platform.codec handoffId expected output w.store = .ok (result, t))
    (steps : ∀ h ∈ w.store.ocrHandoffs, h.handoffId = handoffId → h.phase = expected →
      RowStep platform (AllTimely log) h (withOutputs h output)) :
    (handoffDiscipline platform).Allows k w ⟨t, log⟩ := by
  have called := called_of_ok amb (.storeOcrOutputs handoffId expected output)
    (discardResult_ok.mpr ⟨result, done⟩)
  simp only [storeOcrOutputs, peel_ok, return_ok] at done
  obtain ⟨⟨count, u⟩, updated, done⟩ := done
  obtain ⟨-, rfl⟩ := Prod.mk.inj done
  apply allows_update inv updated called suffix
  intro h mem chosen
  simp only [decide_eq_true_eq] at chosen
  exact steps h mem chosen.1 chosen.2

theorem allows_fail (amb : Ambient) {handoffId : String} {expected : OcrPhase}
    {code message : String} {retryable result : Bool} {t : Store}
    (inv : HandoffInvariant platform w) (suffix : w.applications <:+ log)
    (done : failOcrHandoff platform.codec handoffId expected code message retryable w.store =
      .ok (result, t))
    (unadmitted : ∀ h ∈ w.store.ocrHandoffs, h.handoffId = handoffId → h.phase = expected →
      AllTimely log → isAdmitted h.phase = false) :
    (handoffDiscipline platform).Allows k w ⟨t, log⟩ := by
  have called := called_of_ok amb (.failOcrHandoff handoffId expected code message retryable)
    (discardResult_ok.mpr ⟨result, done⟩)
  simp only [failOcrHandoff, peel_ok, return_ok] at done
  obtain ⟨⟨count, u⟩, updated, done⟩ := done
  obtain ⟨-, rfl⟩ := Prod.mk.inj done
  apply allows_update inv updated called suffix
  intro h mem chosen
  simp only [decide_eq_true_eq] at chosen
  exact rowStep_fail (unadmitted h mem chosen.1 chosen.2)

/-! ## Applying a status -/

/-- What the reply may be: an inline status of protocol 2, or a decoded one of protocol 3. -/
def Fitting (platform : OcrPlatform) (handoff : OcrHandoff) : ReceivedStatus → Prop
  | .inline _ => ¬ Streamed platform handoff
  | .streamed status => Decoded platform status

theorem allows_andReturn {α : Type} {statement : Except StoreError (α × Store)}
    {outcome : Except OcrConsumerError Unit} (inv : HandoffInvariant platform w)
    (suffix : w.applications <:+ log)
    (commits : ∀ r t, statement = .ok (r, t) →
      (handoffDiscipline platform).Allows k w ⟨t, log⟩) :
    (handoffDiscipline platform).Allows k w ⟨(andReturn statement w.store outcome).2, log⟩ := by
  cases result : statement with
  | ok done =>
      obtain ⟨r, t⟩ := done
      exact commits r t result
  | error e => exact allows_same inv suffix

/-- The status is logged with the phase that was read and the phase that was found. -/
def logged (handoff : OcrHandoff) (received : ReceivedStatus) (w : HandoffWorld) :
    List Application :=
  ⟨received, handoff.phase, (getOcrHandoff w.store handoff.handoffId).map (·.phase)⟩ ::
    w.applications

theorem timely_of_logged (keyed : Keyed w.store) (mem : a ∈ w.store.ocrHandoffs)
    (same : a.handoffId = handoff.handoffId) (phase : a.phase = handoff.phase)
    (timely : AllTimely (logged handoff received w)) :
    Applicable a.phase ∨ (received.state = .failed ∧ isAdmitted a.phase = false) := by
  have found : getOcrHandoff w.store handoff.handoffId = some a := same ▸ keyed.getOcrHandoff mem
  rcases timely _ List.mem_cons_self with applicable | other | failed
  · exact .inl (phase ▸ applicable)
  · simp only [found, Option.map_some, phase] at other
    exact absurd rfl other
  · exact .inr (phase ▸ failed)

theorem unadmitted_of_logged (keyed : Keyed w.store) (mem : a ∈ w.store.ocrHandoffs)
    (same : a.handoffId = handoff.handoffId) (phase : a.phase = handoff.phase)
    (timely : AllTimely (logged handoff received w)) : isAdmitted a.phase = false := by
  cases timely_of_logged keyed mem same phase timely with
  | inl applicable => exact applicable.unadmitted
  | inr failed => exact failed.2

theorem applicable_of_logged (keyed : Keyed w.store) (mem : a ∈ w.store.ocrHandoffs)
    (same : a.handoffId = handoff.handoffId) (phase : a.phase = handoff.phase)
    (going : received.state ≠ .failed) (timely : AllTimely (logged handoff received w)) :
    Applicable a.phase := by
  cases timely_of_logged keyed mem same phase timely with
  | inl applicable => exact applicable
  | inr failed => exact absurd failed.1 going

section Applying

variable (inv : HandoffInvariant platform w) (amb : Ambient)

include inv amb

theorem allows_rejectStatus {message : String} (same : b.handoffId = handoff.handoffId)
    (phase : b.phase = handoff.phase) :
    (handoffDiscipline platform).Allows k w
      ⟨(rejectStatus platform b message w.store).2, logged handoff received w⟩ := by
  apply allows_andReturn inv (List.suffix_cons _ _)
  intro r t done
  apply allows_fail amb inv (List.suffix_cons _ _) done
  intro h mem own found
  exact unadmitted_of_logged inv.keyed mem (own.trans same) (found.trans phase)

theorem allows_applyFailure {error : JobError} (same : b.handoffId = handoff.handoffId)
    (phase : b.phase = handoff.phase) :
    (handoffDiscipline platform).Allows k w
      ⟨(applyFailure platform b error w.store).2, logged handoff received w⟩ := by
  apply allows_andReturn inv (List.suffix_cons _ _)
  intro r t done
  apply allows_fail amb inv (List.suffix_cons _ _) done
  intro h mem own found
  exact unadmitted_of_logged inv.keyed mem (own.trans same) (found.trans phase)

theorem allows_applyInlineStatus {status : JobStatus OutputArtifact}
    (known : Known platform handoff w) (inline : ¬ Streamed platform handoff) :
    (handoffDiscipline platform).Allows k w
      ⟨(applyInlineStatus platform handoff status w.store).2,
        logged handoff (.inline status) w⟩ := by
  have inline_row : ∀ h ∈ w.store.ocrHandoffs, h.handoffId = handoff.handoffId →
      ¬ Streamed platform h := by
    intro h mem same streamed
    have owner := (known.row inv.keyed mem same).owner
    exact inline (streamed.congr owner.symm)
  have runs : status.status ≠ .failed → ∀ outcome, (handoffDiscipline platform).Allows k w
      ⟨(andReturn (transitionOcrHandoff platform.codec handoff.handoffId handoff.phase .running
        (some (platform.serde.inlineStatusToString status)) w.store) w.store outcome).2,
        logged handoff (.inline status) w⟩ := by
    intro going outcome
    apply allows_andReturn inv (List.suffix_cons _ _)
    intro r t done
    apply allows_transition amb inv (List.suffix_cons _ _) done
    intro h mem same phase
    exact rowStep_inline_running (inline_row h mem same)
      (applicable_of_logged inv.keyed mem same phase going)
  unfold applyInlineStatus
  cases validateStatusIdentity platform handoff status with
  | error message => exact allows_rejectStatus inv amb rfl rfl
  | ok _ =>
      simp only
      cases state : status.status with
      | accepted => exact runs (by simp [state]) _
      | processing => exact runs (by simp [state]) _
      | failed =>
          cases status.error with
          | none => exact allows_same inv (List.suffix_cons _ _)
          | some error => exact allows_applyFailure inv amb rfl rfl
      | completed =>
          simp only
          split
          · exact allows_rejectStatus inv amb rfl rfl
          · apply allows_andReturn inv (List.suffix_cons _ _)
            intro r t done
            apply allows_store amb inv (List.suffix_cons _ _) done
            intro h mem same phase
            exact rowStep_inline_outputs (inline_row h mem same)
              (applicable_of_logged inv.keyed mem same phase (by simp [ReceivedStatus.state, state]))

omit inv amb in
theorem going_of_checked {status : Status} {saves : Bool}
    (checked : checkCompletion platform a status = .ok saves) (error : status.error = none) :
    status.status ≠ .failed := by
  obtain ⟨_, valid, -⟩ := peel_ok.mp checked
  have shape := shape_of_validate valid
  intro failed
  simp [terminalShape, failed, error] at shape

theorem allows_saveStatus {status : Status} (decoded : Decoded platform status) :
    (handoffDiscipline platform).Allows k w
      ⟨(saveStatus platform handoff status w.store).2,
        logged handoff (.streamed status) w⟩ := by
  unfold saveStatus
  cases found : getOcrHandoff w.store handoff.handoffId with
  | none => exact allows_same inv (List.suffix_cons _ _)
  | some current =>
      obtain ⟨mem, same⟩ := mem_of_getOcrHandoff found
      simp only
      split
      · exact allows_same inv (List.suffix_cons _ _)
      · next phase =>
          obtain phase := not_not.mp phase
          cases checked : checkCompletion platform current status with
          | error message => exact allows_rejectStatus inv amb same phase
          | ok saves =>
              cases saves with
              | false => exact allows_same inv (List.suffix_cons _ _)
              | true =>
                  simp only
                  cases error : status.error with
                  | some error => exact allows_applyFailure inv amb same phase
                  | none =>
                      apply allows_andReturn inv (List.suffix_cons _ _)
                      intro r t done
                      apply allows_transition amb inv (List.suffix_cons _ _) done
                      intro h mem' own _
                      obtain rfl := inv.keyed.unique mem' mem own
                      exact rowStep_save decoded checked error
                        (applicable_of_logged inv.keyed mem same phase
                          (going_of_checked checked error))

end Applying

theorem behaves_applyStatus {status : ReceivedStatus} (known : Known platform handoff w) (fitting : Fitting platform handoff status) :
    Behaves platform k (applyStatus platform handoff status) w := by
  apply Discipline.sat_atomic stable_known known (fun _ => Discipline.stable_const)
    fun _ => Discipline.stable_const
  intro answer t inv known
  refine ⟨?_, by split <;> trivial⟩
  cases answer.fault with
  | some error => exact allows_same inv (List.suffix_refl _)
  | none =>
      cases status with
      | inline status => exact allows_applyInlineStatus inv answer.ambient known fitting
      | streamed status => exact allows_saveStatus inv answer.ambient fitting

end DocumentSummarizer.Ocr
