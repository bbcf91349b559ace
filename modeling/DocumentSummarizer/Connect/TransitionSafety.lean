import DocumentSummarizer.Connect.TransitionDiscipline

/-! # Safety of background-mode transitions

What each part of a transition achieves while other processes admit jobs and
wait for the control lock, and what therefore holds of every reachable state.
-/

namespace DocumentSummarizer.Connect.Background

open Library

/-- A statement about the record, the manager, the journal and what was cleared. -/
abbrev Facts : Type :=
  Option BackgroundTransition → Bool → List Call → Option BackgroundTransition → Prop

abbrev Anything : Facts :=
  fun _ _ _ _ => True

/-- Process `k` holds the control lock, with `gate` the admission lock as well, and knows the
facts. -/
structure Holds (k : Client) (gate : Bool) (facts : Facts) (s : Control) : Prop where
  control : s.control.exclusive = some k
  gate : gate = true → s.admission.exclusive = some k
  unguarded : k ∉ s.admitted
  facts : facts s.record s.enabled s.journal s.cleared

section Parts

variable {k : Client} {gate : Bool} {facts : Facts} {s : Control}

abbrev Achieves (k : Client) {α : Type} (p : Step α) (post : α → Control → Prop)
    (failed : LifecycleControlError → Control → Prop) (s : Control) : Prop :=
  controlDiscipline.Sat k p post failed s

theorem stable_holds : controlDiscipline.Stable k (Holds k gate facts) := by
  intro s t _ frame h
  obtain ⟨control, record, enabled, journal, cleared⟩ := frame.held h.control
  refine ⟨control, fun on => frame.exclusive.mpr (h.gate on), ?_, ?_⟩
  · exact fun mem => h.unguarded (frame.admitted.mp mem)
  · rw [record, enabled, journal, cleared]
    exact h.facts

section

variable (h : Holds k gate facts s)

include h

theorem Holds.weaken {facts' : Facts}
    (weaker : ∀ r e j c, facts r e j c → facts' r e j c) : Holds k gate facts' s :=
  ⟨h.control, h.gate, h.unguarded, weaker _ _ _ _ h.facts⟩

theorem Holds.anything : Holds k gate Anything s :=
  h.weaken fun _ _ _ _ _ => trivial

theorem sat_current :
    Achieves k current (fun found => Holds k gate fun r e j c => facts r e j c ∧ found = r)
      (fun _ => Holds k gate Anything) s := by
  apply Discipline.sat_atomic stable_holds h (fun _ => stable_holds) fun _ => stable_holds
  intro i t inv held
  cases error : i.error with
  | none =>
      exact ⟨allows_same inv, held.control, held.gate, held.unguarded, held.facts, rfl⟩
  | some e =>
      exact ⟨allows_same inv, held.anything⟩

theorem sat_answer {α : Type} {value : Answer → Control → α} :
    Achieves k (operation fun i s => (.ok (value i s), s)) (fun _ => Holds k gate facts)
      (fun _ => Holds k gate Anything) s := by
  apply Discipline.sat_atomic stable_holds h (fun _ => stable_holds) fun _ => stable_holds
  intro i t inv held
  cases error : i.error with
  | none =>
      exact ⟨allows_same inv, held⟩
  | some e =>
      exact ⟨allows_same inv, held.anything⟩

theorem sat_fail {α : Type} {post : α → Control → Prop} {e : LifecycleControlError}
    :
    Achieves k (Process.fail e) post (fun _ => Holds k gate Anything) s :=
  Discipline.sat_fail stable_holds h.anything

theorem sat_admissionLock :
    Achieves k (admissionLock k true) (fun _ => Holds k true facts)
      (fun _ => Holds k gate Anything) s := by
  apply Discipline.sat_atomic stable_holds h (fun _ => stable_holds) fun _ => stable_holds
  intro i t inv held
  cases error : i.error with
  | some e =>
      exact ⟨allows_same inv, held.anything⟩
  | none =>
      simp only [if_true]
      cases taken : t.admission.tryLock k with
      | none => exact ⟨allows_same inv, held.anything⟩
      | some lock =>
          obtain ⟨-, -, mine, -⟩ := FileLock.tryLock_some taken
          have chosen : (if true = true then t.admission.tryLock k
              else t.admission.tryLockShared k) = some lock := by
            simpa using taken
          exact ⟨allows_admissionLock inv chosen, held.control, fun _ => mine, held.unguarded,
            held.facts⟩

end

theorem sat_gated {α : Type} {body : Step α} {facts' : α → Facts} (inv : ControlInvariant s)
    (h : Holds k false facts s)
    (inner : ∀ t, ControlInvariant t → Holds k true facts t →
      Achieves k body (fun a => Holds k true (facts' a)) (fun _ => Holds k true Anything) t) :
    Achieves k (do admissionLock k true; body.releasing (dropAdmissionLock k))
      (fun a => Holds k false (facts' a)) (fun _ => Holds k false Anything) s := by
  have dropped : ∀ {t : Control} {known : Facts}, ControlInvariant t → Holds k true known t →
      controlDiscipline.Allows k t (dropAdmissionLock k t) ∧
        Holds k false known (dropAdmissionLock k t) := by
    intro t known inv held
    exact ⟨allows_dropAdmissionLock inv held.unguarded, held.control, nofun, held.unguarded,
      held.facts⟩
  apply Discipline.Sat.bind inv (sat_admissionLock h)
  intro _ t inv held
  apply (inner t inv held).releasing (fun _ => stable_holds) fun _ => stable_holds
  · exact fun a u inv after => dropped inv after
  · exact fun e u inv after => dropped inv after

theorem sat_atomicWrite {t : BackgroundTransition} (h : Holds k true facts s)
    (allowed : ∀ r e j c, facts r e j c →
      (∀ r', r = some r' → SameIdentity r' t) ∧ Consistent t e j) :
    Achieves k (atomicWrite t)
      (fun _ => Holds k true fun r e j c => r = some t ∧ ∃ before, facts before e j c)
      (fun _ => Holds k true Anything) s := by
  apply Discipline.sat_atomic stable_holds h (fun _ => stable_holds) fun _ => stable_holds
  intro i u inv held
  obtain ⟨same, consistent⟩ := allowed _ _ _ _ held.facts
  have written := allows_write inv held.control (held.gate rfl) same consistent
  cases error : i.error with
  | none =>
      exact ⟨written, held.control, held.gate, held.unguarded, rfl, u.record, held.facts⟩
  | some e =>
      cases i.effective with
      | true => exact ⟨written, held.control, held.gate, held.unguarded, trivial⟩
      | false => exact ⟨allows_same inv, held.anything⟩

theorem sat_removeRecord {t : BackgroundTransition} (h : Holds k true facts s)
    (settled : ∀ r e j c, facts r e j c → r = some t ∧ Settled t e) :
    Achieves k (removeRecord t)
      (fun _ => Holds k true fun _ e _ c => c = some t ∧ Settled t e)
      (fun _ => Holds k true Anything) s := by
  apply Discipline.sat_atomic stable_holds h (fun _ => stable_holds) fun _ => stable_holds
  intro i u inv held
  obtain ⟨found, at_rest⟩ := settled _ _ _ _ held.facts
  have removed := allows_remove inv held.control found at_rest
  cases error : i.error with
  | none =>
      exact ⟨removed, held.control, held.gate, held.unguarded, rfl, at_rest⟩
  | some e =>
      cases i.effective with
      | true => exact ⟨removed, held.control, held.gate, held.unguarded, trivial⟩
      | false => exact ⟨allows_same inv, held.anything⟩

theorem sat_persistNew {t : BackgroundTransition} (inv : ControlInvariant s)
    (h : Holds k false facts s)
    (consistent : ∀ r e j c, facts r e j c → Consistent t e j) :
    Achieves k (persistNew k t)
      (fun _ => Holds k false fun r e j c => r = some t ∧ ∃ before, facts before e j c)
      (fun _ => Holds k false Anything) s := by
  apply sat_gated inv h
  intro u inv held
  apply Discipline.Sat.bind inv (sat_current held)
  intro found v inv known
  cases found with
  | some other => exact sat_fail known
  | none =>
      have blank : Holds k true (fun r e j c => facts r e j c ∧ none = r) v := known
      apply Discipline.Sat.weaken (sat_atomicWrite blank ?_) ?_ fun _ _ _ after => after
      · intro r e j c before
        refine ⟨?_, consistent r e j c before.1⟩
        intro r' present
        rw [← before.2] at present
        cases present
      · intro _ w _ after
        exact after.weaken fun r e j c ⟨written, before, held, _⟩ => ⟨written, before, held⟩

theorem sat_persistExact {old t : BackgroundTransition} (inv : ControlInvariant s)
    (h : Holds k false (fun r e j c => r = some old ∧ facts r e j c) s)
    (same : SameIdentity old t) (consistent : ∀ r e j c, facts r e j c → Consistent t e j) :
    Achieves k (persistExact k t)
      (fun _ => Holds k false fun r e j c => r = some t ∧ ∃ before, facts before e j c)
      (fun _ => Holds k false Anything) s := by
  apply sat_gated inv h
  intro u inv held
  apply Discipline.Sat.bind inv (sat_current held)
  intro found v inv known
  have found_eq : found = some old := known.facts.2.trans known.facts.1.1
  subst found_eq
  have exact_match : ¬ (old.generation ≠ t.generation ∨ old.kind ≠ t.kind ∨
      old.state ≠ t.state) := by
    simp [same.generation, same.kind, same.state]
  simp only [exact_match, if_false]
  apply Discipline.Sat.weaken (sat_atomicWrite known ?_) ?_ fun _ _ _ after => after
  · intro r e j c before
    refine ⟨?_, consistent r e j c before.1.2⟩
    intro r' present
    rw [before.1.1] at present
    cases present
    exact same
  · intro _ w _ after
    exact after.weaken fun r e j c ⟨written, before, held, _⟩ => ⟨written, before, held.2⟩

theorem sat_clearExact {t : BackgroundTransition} (inv : ControlInvariant s)
    (h : Holds k false (fun r e _ _ => r = some t ∧ Settled t e) s) :
    Achieves k (clearExact k t.generation)
      (fun _ => Holds k false fun _ e _ c => c = some t ∧ Settled t e)
      (fun _ => Holds k false Anything) s := by
  apply sat_gated inv h
  intro u inv held
  apply Discipline.Sat.bind inv (sat_current held)
  intro found v inv known
  have found_eq : found = some t := known.facts.2.trans known.facts.1.1
  subst found_eq
  simp only [ne_eq, not_true_eq_false, if_false]
  exact sat_removeRecord known fun _ _ _ _ before => before.1

/-! ### The phases of a transition -/

/-- The record is the transition `t`, and `P` holds of the manager and the journal. -/
def At (t : BackgroundTransition) (P : Bool → List Call → Prop) : Facts :=
  fun r e j _ => r = some t ∧ P e j

/-- The end of a transition that reports success. -/
def Finished (k : Client) (s : Control) : Prop :=
  ∃ t, t.disposition = .forward ∧
    Holds k false (fun _ e _ c => c = some t ∧ e = t.targetEnabled) s

variable {t u : BackgroundTransition} {P : Bool → List Call → Prop}

theorem sat_persist (inv : ControlInvariant s) (h : Holds k false (At t P) s)
    (same : SameIdentity t u) (consistent : ∀ e j, P e j → Consistent u e j) :
    Achieves k (persistExact k u) (fun _ => Holds k false (At u fun e j => Consistent u e j))
      (fun _ => Holds k false Anything) s := by
  have known : Holds k false (fun r e j c => r = some t ∧ At t P r e j c) s :=
    h.weaken fun r e j c before => ⟨before.1, before⟩
  apply Discipline.Sat.weaken (sat_persistExact inv known same
    fun r e j c before => consistent e j before.2) ?_ fun _ _ _ after => after
  intro _ v _ after
  exact after.weaken fun r e j c ⟨written, _, before⟩ => ⟨written, consistent e j before.2⟩

/-- An effect that leaves the manager where it is. -/
theorem sat_still {effect : Effect} (h : Holds k gate (At t P) s)
    (grows : ∀ e j call, P e j → P e (call :: j))
    (still : effect ≠ .enableAndStart ∧ effect ≠ .disableAndStop ∧
      effect ≠ .restorePriorChoice) :
    Achieves k (perform effect t fun _ s => s.enabled)
      (fun _ => Holds k gate (At t fun e j => P e j ∧ ⟨effect, t, true⟩ ∈ j))
      (fun _ => Holds k gate (At t P)) s := by
  apply Discipline.sat_atomic stable_holds h (fun _ => stable_holds) fun _ => stable_holds
  intro i v inv held
  have issued : ∀ succeeded, Issued ⟨effect, t, succeeded⟩ v.journal :=
    fun _ => ⟨fun enable => absurd enable still.1, fun restore => absurd restore still.2.2⟩
  have performed : ∀ succeeded, controlDiscipline.Allows k v
      { v with journal := ⟨effect, t, succeeded⟩ :: v.journal } := by
    intro succeeded
    exact allows_perform inv held.control (issued succeeded) fun r found =>
      (inv.record r found).cons _
  cases error : i.error with
  | none =>
      exact ⟨performed true, held.control, held.gate, held.unguarded, held.facts.1,
        grows _ _ _ held.facts.2, List.mem_cons_self⟩
  | some e =>
      have unmoved : ¬ (effect = .enableAndStart ∨ effect = .disableAndStop ∨
          effect = .restorePriorChoice) := by
        simp [still]
      simp only [if_neg unmoved]
      exact ⟨performed false, held.control, held.gate, held.unguarded, held.facts.1,
        grows _ _ _ held.facts.2⟩

theorem sat_move {effect : Effect} {choice : Bool} (h : Holds k gate (At t P) s)
    (issued : ∀ e j succeeded, P e j → Issued ⟨effect, t, succeeded⟩ j)
    (free : ∀ e j e', P e j → Consistent t e' j) :
    Achieves k (perform effect t fun _ _ => choice)
      (fun _ => Holds k gate (At t fun e _ => e = choice)) (fun _ => Holds k gate Anything) s := by
  apply Discipline.sat_atomic stable_holds h (fun _ => stable_holds) fun _ => stable_holds
  intro i v inv held
  have performed : ∀ succeeded e', controlDiscipline.Allows k v
      { v with enabled := e', journal := ⟨effect, t, succeeded⟩ :: v.journal } := by
    intro succeeded e'
    refine allows_perform inv held.control (issued _ _ succeeded held.facts.2) ?_
    intro r found
    rw [held.facts.1] at found
    cases found
    exact (free _ _ e' held.facts.2).cons _
  cases error : i.error with
  | none =>
      exact ⟨performed true choice, held.control, held.gate, held.unguarded, held.facts.1, rfl⟩
  | some e =>
      exact ⟨performed false _, held.control, held.gate, held.unguarded, trivial⟩

theorem sat_clear (inv : ControlInvariant s) (h : Holds k false (At t P) s)
    (settled : ∀ e j, P e j → Settled t e) :
    Achieves k (clearExact k t.generation)
      (fun _ => Holds k false fun _ e _ c => c = some t ∧ Settled t e)
      (fun _ => Holds k false Anything) s := by
  apply sat_clearExact inv
  exact h.weaken fun r e j c before => ⟨before.1, settled e j before.2⟩

/-- The end of a rollback reports an error, with the prior choice restored. -/
theorem sat_clearRollback (inv : ControlInvariant s)
    (h : Holds k false (At t fun e _ => e = t.priorEnabled) s)
    (rollback : t.disposition = .rollback) :
    Achieves k (clearRollback k t) (fun _ => Finished k) (fun _ => Holds k false Anything) s := by
  have settled : ∀ e, e = t.priorEnabled → Settled t e := by
    intro e choice
    constructor
    · intro forward
      rw [rollback] at forward
      cases forward
    · exact fun _ => choice
  have still : ∀ {effect v}, Holds k false (At t fun e _ => e = t.priorEnabled) v →
      effect ≠ .enableAndStart ∧ effect ≠ .disableAndStop ∧ effect ≠ .restorePriorChoice →
      Achieves k (perform effect t fun _ s => s.enabled)
        (fun _ => Holds k false (At t fun e _ => e = t.priorEnabled))
        (fun _ => Holds k false Anything) v := by
    intro effect v held unmoved
    apply (sat_still held (fun _ _ _ same => same) unmoved).weaken
    · exact fun _ w _ after => after.weaken fun r e j c ⟨found, choice, _⟩ => ⟨found, choice⟩
    · exact fun _ w _ after => after.anything
  have clears : ∀ {v}, ControlInvariant v →
      Holds k false (At t fun e _ => e = t.priorEnabled) v →
      Achieves k (do
        beforeClear t
        clearExact k t.generation
        Process.fail (α := Unit) .readiness) (fun _ => Finished k)
        (fun _ => Holds k false Anything) v := by
    intro v inv held
    apply Discipline.Sat.bind inv (still held (by decide))
    intro _ w inv after
    apply Discipline.Sat.bind inv (sat_clear inv after fun e _ choice => settled e choice)
    intro _ x _ cleared
    exact sat_fail cleared
  unfold clearRollback
  by_cases prior : t.priorEnabled = true
  · rw [if_pos prior]
    apply Discipline.Sat.bind inv (still h (by decide))
    intro _ v inv after
    exact clears inv after
  · rw [if_neg prior]
    exact clears inv h

theorem sat_restoreAndClear (inv : ControlInvariant s)
    (h : Holds k false (At t fun e j => Consistent t e j) s) (rollback : t.disposition = .rollback)
    (kind : t.kind = .enable) (phase : t.phase = .rollbackTargetStopped) :
    Achieves k (restoreAndClear k t) (fun _ => Finished k) (fun _ => Holds k false Anything) s := by
  have stopped : ∀ e j, Consistent t e j → RollbackStopped t.generation j := by
    intro e j consistent
    cases consistent.stage with
    | targetStopped _ _ _ stopped => exact stopped
    | _ => simp_all
  unfold restoreAndClear
  apply Discipline.Sat.bind inv (sat_move h ?_ ?_)
  · intro _ v inv after
    apply Discipline.Sat.bind inv (sat_persist inv after (.withPhase t .priorChoiceRestored) ?_)
    · intro _ w inv persisted
      refine @sat_clearRollback k w (t.withPhase .priorChoiceRestored) inv
        (persisted.weaken ?_) rollback
      intro r e j c known
      refine ⟨known.1, ?_⟩
      cases known.2.stage with
      | restored _ _ _ choice => exact choice
      | _ => simp_all [BackgroundTransition.withPhase]
    · intro e j choice
      exact ⟨(h.facts.2).target, .restored rollback kind rfl choice⟩
  · intro e j succeeded consistent
    exact ⟨nofun, fun _ => stopped e j consistent⟩
  · intro e j e' consistent
    exact ⟨consistent.target, .targetStopped rollback kind phase (stopped e j consistent)⟩

theorem sat_resumeRollback (inv : ControlInvariant s)
    (h : Holds k false (At t fun e j => Consistent t e j) s)
    (rollback : t.disposition = .rollback) :
    Achieves k (resumeRollback k t) (fun _ => Finished k) (fun _ => Holds k false Anything) s := by
  unfold resumeRollback
  cases h.facts.2.stage with
  | rollingBack _ kind phase =>
      simp only [kind, phase, ne_eq, not_true_eq_false, if_false]
      apply Discipline.Sat.bind inv (Discipline.Sat.weaken (sat_still h ?_ (by decide))
        (fun _ _ _ after => after) fun _ _ _ after => after.anything)
      · intro _ v inv after
        apply Discipline.Sat.bind inv
          (sat_persist inv after (.withPhase t .rollbackTargetStopped) ?_)
        · intro _ w inv persisted
          exact @sat_restoreAndClear k w (t.withPhase .rollbackTargetStopped) inv persisted
            rollback kind rfl
        · intro e j known
          refine ⟨known.1.target, .targetStopped rollback kind rfl ?_⟩
          exact ⟨_, known.2, rfl, rfl, rfl, rollback⟩
      · exact fun e j call consistent => consistent.cons call
  | targetStopped _ kind phase _ =>
      simp only [kind, phase, ne_eq, not_true_eq_false, if_false]
      exact sat_restoreAndClear inv h rollback kind phase
  | restored _ kind phase _ =>
      simp only [kind, phase, ne_eq, not_true_eq_false, if_false]
      apply sat_clearRollback inv (h.weaken ?_) rollback
      intro r e j c known
      refine ⟨known.1, ?_⟩
      cases known.2.stage with
      | restored _ _ _ choice => exact choice
      | _ => simp_all
  | intended forward => simp [forward] at rollback
  | sourceStopped forward => simp [forward] at rollback
  | managerEnabled forward => simp [forward] at rollback
  | successorReady forward => simp [forward] at rollback
  | publisherStopped forward => simp [forward] at rollback
  | managerDisabled forward => simp [forward] at rollback

/-! ### The loop -/

section

variable (forward : t.disposition = .forward)

include forward

theorem advance_enable (kind : t.kind = .enable)
    (phase : t.phase = .intentRecorded) :
    advance k t = (do
      stopPublishers t
      persistExact k (t.withPhase .sourceStopped)
      advance k (t.withPhase .sourceStopped)) := by
  cases t
  cases forward
  cases kind
  cases phase
  rw [advance]
  rfl

theorem advance_sourceStopped (kind : t.kind = .enable)
    (phase : t.phase = .sourceStopped) :
    advance k t = (do
      enableAndStart t
      persistExact k (t.withPhase .managerEnabled)
      advance k (t.withPhase .managerEnabled)) := by
  cases t
  cases forward
  cases kind
  cases phase
  rw [advance]
  rfl

theorem advance_managerEnabled (kind : t.kind = .enable)
    (phase : t.phase = .managerEnabled) :
    advance k t = (do
      match ← (waitUntilReady t).attempt with
      | .error _ => do
        let now ← unixMs
        let transition := { t with disposition := .rollback }.setAttemptDeadlines now
        persistExact k transition
        resumeRollback k transition
      | .ok () => do
        persistExact k (t.withPhase .successorReady)
        advance k (t.withPhase .successorReady)) := by
  cases t
  cases forward
  cases kind
  cases phase
  rw [advance]
  rfl

theorem advance_successorReady (kind : t.kind = .enable)
    (phase : t.phase = .successorReady) :
    advance k t = (do
      beforeClear t
      clearExact k t.generation) := by
  cases t
  cases forward
  cases kind
  cases phase
  rw [advance]
  rfl

theorem advance_disable (kind : t.kind = .disable)
    (phase : t.phase = .intentRecorded) :
    advance k t = (do
      stopPublishers t
      persistExact k (t.withPhase .publisherStopped)
      advance k (t.withPhase .publisherStopped)) := by
  cases t
  cases forward
  cases kind
  cases phase
  rw [advance]
  rfl

theorem advance_publisherStopped (kind : t.kind = .disable)
    (phase : t.phase = .publisherStopped) :
    advance k t = (do
      disableAndStop t
      persistExact k (t.withPhase .managerDisabled)
      advance k (t.withPhase .managerDisabled)) := by
  cases t
  cases forward
  cases kind
  cases phase
  rw [advance]
  rfl

theorem advance_managerDisabled (kind : t.kind = .disable)
    (phase : t.phase = .managerDisabled) :
    advance k t = (do
      beforeClear t
      clearExact k t.generation) := by
  cases t
  cases forward
  cases kind
  cases phase
  rw [advance]
  rfl

end

theorem advance_rollback (rollback : t.disposition = .rollback) :
    advance k t = resumeRollback k t := by
  rw [advance, if_pos rollback]

/-- A cleared forward transition is a finished one. -/
theorem sat_finish (inv : ControlInvariant s) (forward : t.disposition = .forward)
    (h : Holds k false (At t fun e j => Consistent t e j) s)
    (choice : ∀ e j, Consistent t e j → e = t.targetEnabled) :
    Achieves k (do beforeClear t; clearExact k t.generation) (fun _ => Finished k)
      (fun _ => Holds k false Anything) s := by
  apply Discipline.Sat.bind inv (Discipline.Sat.weaken (sat_still h ?_ (by decide))
    (fun _ _ _ after => after) fun _ _ _ after => after.anything)
  · intro _ v inv after
    apply Discipline.Sat.weaken (sat_clear inv after ?_) ?_ fun _ _ _ after => after
    · intro e j known
      refine ⟨fun _ => choice e j known.1, ?_⟩
      intro rollback
      rw [forward] at rollback
      cases rollback
    · intro _ w _ cleared
      exact ⟨t, forward, cleared.weaken fun _ _ _ _ known => ⟨known.1, known.2.forward forward⟩⟩
  · exact fun e j call consistent => consistent.cons call

/-- The loop finishes a transition from any phase, or stops at an error. -/
theorem sat_advance {n : Nat} (remaining : t.phase.remaining = n) (inv : ControlInvariant s)
    (h : Holds k false (At t fun e j => Consistent t e j) s) :
    Achieves k (advance k t) (fun _ => Finished k) (fun _ => Holds k false Anything) s := by
  induction n using Nat.strongRecOn generalizing t s with
  | ind n ih =>
      -- the next phase is persisted and the loop goes on from it
      have goes : ∀ {v : Control} {phase : TransitionPhase} {P : Bool → List Call → Prop},
          ControlInvariant v → Holds k false (At t P) v → phase.remaining < n →
          (∀ e j, P e j → Consistent (t.withPhase phase) e j) →
          Achieves k (do
            persistExact k (t.withPhase phase)
            advance k (t.withPhase phase)) (fun _ => Finished k)
            (fun _ => Holds k false Anything) v := by
        intro v phase P inv held fewer consistent
        apply Discipline.Sat.bind inv (sat_persist inv held (.withPhase t phase) consistent)
        intro _ w inv persisted
        exact @ih phase.remaining fewer w (t.withPhase phase) rfl inv persisted
      have grows : ∀ e j call, Consistent t e j → Consistent t e (call :: j) :=
        fun _ _ call consistent => consistent.cons call
      have target := h.facts.2.target
      cases h.facts.2.stage with
      | intended forward phase =>
          cases kind : t.kind with
          | enable =>
              rw [advance_enable forward kind phase]
              apply Discipline.Sat.bind inv (Discipline.Sat.weaken (sat_still h grows (by decide))
                (fun _ _ _ after => after) fun _ _ _ after => after.anything)
              intro _ v inv after
              apply goes inv after
              · rw [← remaining, phase]
                decide
              · intro e j known
                exact ⟨target, .sourceStopped forward kind rfl ⟨_, known.2, rfl, rfl, rfl⟩⟩
          | disable =>
              rw [advance_disable forward kind phase]
              apply Discipline.Sat.bind inv (Discipline.Sat.weaken (sat_still h grows (by decide))
                (fun _ _ _ after => after) fun _ _ _ after => after.anything)
              intro _ v inv after
              apply goes inv after
              · rw [← remaining, phase]
                decide
              · exact fun e j known => ⟨target, .publisherStopped forward kind rfl⟩
      | sourceStopped forward kind phase _ =>
          rw [advance_sourceStopped forward kind phase]
          have stopped : ∀ e j, Consistent t e j → Stopped t.generation j := by
            intro e j consistent
            exact consistent.stage.stopped_of_phase phase
          apply Discipline.Sat.bind inv (sat_move h ?_ ?_)
          · intro _ v inv after
            apply goes inv after
            · rw [← remaining, phase]
              decide
            · exact fun e j choice => ⟨target, .managerEnabled forward kind rfl choice⟩
          · exact fun e j _ consistent => ⟨fun _ => stopped e j consistent, nofun⟩
          · intro e j e' consistent
            exact ⟨target, .sourceStopped forward kind phase (stopped e j consistent)⟩
      | managerEnabled forward kind phase _ =>
          rw [advance_managerEnabled forward kind phase]
          have choice : ∀ e j, Consistent t e j → e = true := by
            intro e j consistent
            exact consistent.stage.enabled_of_phase forward phase
          have waited : Achieves k (waitUntilReady t).attempt
              (fun _ => Holds k false (At t fun e j => Consistent t e j))
              (fun _ => Holds k false Anything) s := by
            apply Discipline.Sat.attempt
            apply (sat_still h grows (by decide)).weaken
            · exact fun _ v _ after => after.weaken fun r e j c known => ⟨known.1, known.2.1⟩
            · exact fun _ _ _ after => after
          apply Discipline.Sat.bind inv waited
          intro outcome v inv after
          cases outcome with
          | ok _ =>
              apply goes inv after
              · rw [← remaining, phase]
                decide
              · intro e j consistent
                exact ⟨target, .successorReady forward kind rfl (choice e j consistent)⟩
          | error _ =>
              apply Discipline.Sat.bind inv (sat_answer after)
              intro now w inv held
              have same : SameIdentity t (BackgroundTransition.setAttemptDeadlines
                  { t with disposition := .rollback } now) := ⟨rfl, rfl, rfl, rfl, rfl⟩
              apply Discipline.Sat.bind inv (sat_persist inv held same ?_)
              · intro _ x inv persisted
                exact sat_resumeRollback inv persisted rfl
              · intro e j consistent
                exact ⟨target, .rollingBack rfl kind phase⟩
      | successorReady forward kind phase _ =>
          rw [advance_successorReady forward kind phase]
          apply sat_finish inv forward h
          intro e j consistent
          have choice := consistent.stage.enabled_of_ready phase
          simp [choice, target, kind]
      | publisherStopped forward kind phase =>
          rw [advance_publisherStopped forward kind phase]
          apply Discipline.Sat.bind inv (sat_move h ?_ ?_)
          · intro _ v inv after
            apply goes inv after
            · rw [← remaining, phase]
              decide
            · exact fun e j choice => ⟨target, .managerDisabled forward kind rfl choice⟩
          · exact fun _ _ _ _ => ⟨nofun, nofun⟩
          · exact fun e j e' _ => ⟨target, .publisherStopped forward kind phase⟩
      | managerDisabled forward kind phase _ =>
          rw [advance_managerDisabled forward kind phase]
          apply sat_finish inv forward h
          intro e j consistent
          have choice := consistent.stage.disabled_of_phase phase
          simp [choice, target, kind]
      | rollingBack rollback =>
          rw [advance_rollback rollback]
          exact sat_resumeRollback inv h rollback
      | targetStopped rollback =>
          rw [advance_rollback rollback]
          exact sat_resumeRollback inv h rollback
      | restored rollback =>
          rw [advance_rollback rollback]
          exact sat_resumeRollback inv h rollback

end Parts

/-! ## The processes -/

/-- A process that holds nothing. -/
structure Idle (k : Client) (s : Control) : Prop where
  control : s.control.exclusive ≠ some k
  shared : k ∉ s.admission.shared
  admitted : k ∉ s.admitted

section Clients

variable {k : Client} {s : Control} {isUuid : String → Bool}

theorem stable_idle : controlDiscipline.Stable k (Idle k) := by
  intro s t _ frame h
  exact ⟨frame.free h.control, fun mem => h.shared (frame.shared.mp mem),
    fun mem => h.admitted (frame.admitted.mp mem)⟩

theorem sat_controlLock (h : Idle k s) :
    Achieves k (controlLock k) (fun _ => Holds k false Anything) (fun _ _ => True) s := by
  apply Discipline.sat_atomic stable_idle h (fun _ => stable_holds)
    fun _ => Discipline.stable_const
  intro i t inv held
  cases error : i.error with
  | some e => exact ⟨allows_same inv, trivial⟩
  | none =>
      cases taken : t.control.tryLock k with
      | none =>
          simp only [taken]
          exact ⟨allows_same inv, trivial⟩
      | some lock =>
          simp only [taken]
          obtain ⟨-, -, mine, -⟩ := FileLock.tryLock_some taken
          exact ⟨allows_controlLock inv taken, mine, nofun, held.admitted, trivial⟩

theorem sat_validateTransition {gate : Bool} {facts : Facts} {t : BackgroundTransition}
    (inv : ControlInvariant s) (h : Holds k gate facts s) :
    Achieves k (validateTransition isUuid t) (fun _ => Holds k gate facts)
      (fun _ => Holds k gate Anything) s := by
  unfold validateTransition
  split
  · exact sat_fail h
  · apply Discipline.Sat.bind inv (sat_answer h)
    intro state u inv held
    split
    · exact sat_fail held
    · exact Discipline.sat_pure stable_holds held

theorem sat_newTransition {gate : Bool} {facts : Facts} {kind : TransitionKind} {prior : Bool}
    {expected : Option String} (inv : ControlInvariant s) (h : Holds k gate facts s) :
    Achieves k (newTransition kind prior expected)
      (fun t u => Holds k gate facts u ∧ ∀ e j, Consistent t e j)
      (fun _ => Holds k gate Anything) s := by
  apply Discipline.Sat.bind inv (sat_answer h)
  rintro ⟨state, generation⟩ u inv held
  apply Discipline.Sat.bind inv (sat_answer held)
  intro now v _ known
  refine Discipline.sat_pure (stable_holds.and Discipline.stable_const) ⟨known, fun _ _ => ?_⟩
  exact ⟨rfl, .intended rfl rfl⟩

theorem sat_run {requested : Option TransitionKind} {expected : Option String}
    (inv : ControlInvariant s) (h : Idle k s) :
    Achieves k (run isUuid k requested expected) (fun _ => Finished k) (fun _ _ => True) s := by
  have lenient : ∀ {p : Step Unit} {v : Control},
      Achieves k p (fun _ => Finished k) (fun _ => Holds k false Anything) v →
      Achieves k p (fun _ => Finished k) (fun _ _ => True) v :=
    fun achieves => achieves.weaken (fun _ _ _ after => after) fun _ _ _ _ => trivial
  apply Discipline.Sat.bind inv (sat_controlLock h)
  intro _ t inv held
  apply lenient
  apply Discipline.Sat.bind inv (sat_current held)
  intro found u inv known
  cases found with
  | some existing =>
      have there : Holds k false (At existing fun e j => Consistent existing e j) u :=
        ⟨known.control, known.gate, known.unguarded, known.facts.2.symm,
          inv.record existing known.facts.2.symm⟩
      apply Discipline.Sat.bind inv (sat_validateTransition inv there)
      intro _ v inv valid
      split
      · exact sat_fail valid
      · apply Discipline.Sat.bind inv (sat_answer valid)
        intro now w inv clocked
        have same : SameIdentity existing (existing.setAttemptDeadlines now) :=
          ⟨rfl, rfl, rfl, rfl, rfl⟩
        apply Discipline.Sat.bind inv (sat_persist inv clocked same ?_)
        · intro _ x inv persisted
          exact sat_advance rfl inv persisted
        · exact fun e j consistent => consistent.congr same rfl rfl
  | none =>
      cases requested with
      | none => exact sat_fail known
      | some kind =>
          apply Discipline.Sat.bind inv (sat_answer known)
          intro prior v inv queried
          apply Discipline.Sat.bind inv (sat_newTransition inv queried)
          rintro transition w inv ⟨ready, consistent⟩
          apply Discipline.Sat.bind inv
            (sat_persistNew inv ready fun _ e j _ _ => consistent e j)
          intro _ x inv persisted
          exact sat_advance rfl inv
            (persisted.weaken fun _ e j _ after => ⟨after.1, consistent e j⟩)

/-- A process that shares the admission lock, perhaps having found no record. -/
structure Shares (k : Client) (absent : Bool) (s : Control) : Prop where
  control : s.control.exclusive ≠ some k
  shared : k ∈ s.admission.shared
  record : absent = true → s.record = none

theorem stable_shares {absent : Bool} : controlDiscipline.Stable k (Shares k absent) := by
  intro s t _ frame h
  exact ⟨frame.free h.control, frame.shared.mpr h.shared,
    fun known => frame.gate h.shared (h.record known)⟩

theorem sat_enterJobAdmission (inv : ControlInvariant s) (h : Idle k s) :
    Achieves k (enterJobAdmission k) (fun _ _ => True) (fun _ _ => True) s := by
  have locked : Achieves k (admissionLock k false) (fun _ => Shares k false) (fun _ _ => True)
      s := by
    apply Discipline.sat_atomic stable_idle h (fun _ => stable_shares)
      fun _ => Discipline.stable_const
    intro i t inv held
    cases error : i.error with
    | some e => exact ⟨allows_same inv, trivial⟩
    | none =>
        simp only [Bool.false_eq_true, if_false]
        cases taken : t.admission.tryLockShared k with
        | none => exact ⟨allows_same inv, trivial⟩
        | some lock =>
            obtain ⟨-, -, shared⟩ := FileLock.tryLockShared_some taken
            have chosen : (if false = true then t.admission.tryLock k
                else t.admission.tryLockShared k) = some lock := by
              simpa using taken
            refine ⟨allows_admissionLock inv chosen, held.control, ?_, nofun⟩
            rw [shared]
            exact List.mem_cons_self
  have reads : ∀ {t : Control}, Shares k false t →
      Achieves k current (fun found => Shares k found.isNone) (fun _ _ => True) t := by
    intro t held
    apply Discipline.sat_atomic stable_shares held (fun _ => stable_shares)
      fun _ => Discipline.stable_const
    intro i u inv known
    cases error : i.error with
    | some e => exact ⟨allows_same inv, trivial⟩
    | none =>
        exact ⟨allows_same inv, known.control, known.shared,
          fun absent => Option.isNone_iff_eq_none.mp absent⟩
  apply Discipline.Sat.bind inv locked
  intro _ t inv held
  apply Discipline.Sat.bind inv (reads held)
  intro found u inv known
  cases found with
  | some other => exact Discipline.sat_fail Discipline.stable_const trivial
  | none =>
      apply Discipline.sat_atomic stable_shares known (fun _ => Discipline.stable_const)
        fun _ => Discipline.stable_const
      intro i v inv there
      exact ⟨allows_grant inv there.shared (there.record rfl), trivial⟩

/-- What a run that returns has achieved. -/
def Returned : Request → Client → Unit → Control → Prop
  | .run _ _, k, _, s => Finished k s
  | .enterJobAdmission, _, _, _ => True

theorem clients_keep :
    (clients isUuid).Keeps controlDiscipline Idle Returned fun _ _ _ _ => True where
  idle_stable _ := stable_idle
  released k s inv := by
    refine ⟨allows_releaseAll inv, FileLock.unlock_exclusive_self, FileLock.unlock_shared_self,
      ?_⟩
    simp [clients, releaseAll]
  programs request k s inv idle := by
    cases request with
    | run requested expected => exact sat_run inv idle
    | enterJobAdmission => exact sat_enterJobAdmission inv idle

theorem untouched_begins (s : Control) (start : Untouched s) :
    controlDiscipline.inv s ∧ ∀ k, Idle k s := by
  constructor
  · constructor
    · rw [start.record]
      nofun
    · rw [start.journal]
      trivial
    · rw [start.admitted]
      nofun
    · exact fun _ => start.record
  · intro k
    constructor
    · rw [start.control]
      nofun
    · rw [start.admission]
      nofun
    · rw [start.admitted]
      nofun

/-! ## Every reachable state -/

theorem SameIdentity.trans {t u v : BackgroundTransition} (left : SameIdentity t u)
    (right : SameIdentity u v) : SameIdentity t v where
  generation := right.generation.trans left.generation
  kind := right.kind.trans left.kind
  prior := right.prior.trans left.prior
  target := right.target.trans left.target
  state := right.state.trans left.state

theorem ControlChange.refl (s : Control) : ControlChange s s where
  identity := fun r found => .inr ⟨r, found, .refl r⟩
  cleared := by
    intro r found gone
    rw [found] at gone
    cases gone
  issued := .inl rfl
  created := fun absent present => absurd absent present
  granted := fun _ mem new => absurd mem new

abbrev System (isUuid : String → Bool) :
    Machine (Configuration Control Answer LifecycleControlError Unit Request Client)
      (Move Answer LifecycleControlError Unit Request Client) :=
  (clients isUuid).machine Untouched

variable {c d : Configuration Control Answer LifecycleControlError Unit Request Client}

theorem change_of_step {label : Move Answer LifecycleControlError Unit Request Client}
    (reachable : (System isUuid).Reachable c) (step : (clients isUuid).Step c label d) :
    ControlChange c.state d.state := by
  have sound := clients_keep.sound untouched_begins reachable
  rcases sound.change clients_keep step with same | change
  · rw [same]
    exact .refl c.state
  · exact change

/-- The record is cleared somewhere along the run. -/
def ClearedAlong (isUuid : String → Bool)
    (c : Configuration Control Answer LifecycleControlError Unit Request Client)
    (labels : List (Move Answer LifecycleControlError Unit Request Client))
    (d : Configuration Control Answer LifecycleControlError Unit Request Client) : Prop :=
  ∃ front back between, labels = front ++ back ∧ (System isUuid).Run c front between ∧
    (System isUuid).Run between back d ∧ between.state.record = none

theorem identity_along {labels : List (Move Answer LifecycleControlError Unit Request Client)}
    (reachable : (System isUuid).Reachable c) (run : (System isUuid).Run c labels d)
    {r : BackgroundTransition} (found : c.state.record = some r) :
    ClearedAlong isUuid c labels d ∨
      ∃ r', d.state.record = some r' ∧ SameIdentity r r' := by
  induction run generalizing r with
  | nil => exact .inr ⟨r, found, .refl r⟩
  | @cons c between d label labels step rest ih =>
      rcases (change_of_step reachable step).identity r found with gone | ⟨r', there, same⟩
      · exact .inl ⟨[label], labels, between, rfl, .single step, rest, gone⟩
      · rcases ih (reachable.next step) there with cleared | ⟨r'', last, later⟩
        · obtain ⟨front, back, middle, split, before, after, gone⟩ := cleared
          refine .inl ⟨label :: front, back, middle, ?_, .cons step before, after, gone⟩
          rw [split, List.cons_append]
        · exact .inr ⟨r'', last, same.trans later⟩

/-- Whatever fails and wherever a process is stopped: a record keeps its identity until it is
cleared, and is cleared only with the manager where its disposition says; effects are issued in
order; a run that reports success has cleared a forward transition in its target choice, one that
cleared a rollback reports an error; and no job is admitted beside a record. -/
theorem background_transitions_safe (reachable : (System isUuid).Reachable c) :
    (∀ labels d r, (System isUuid).Run c labels d → c.state.record = some r →
      ClearedAlong isUuid c labels d ∨ ∃ r', d.state.record = some r' ∧ SameIdentity r r') ∧
    (∀ label d, (clients isUuid).Step c label d → ControlChange c.state d.state) ∧
    InOrder c.state.journal ∧
    (∀ k requested expected, c.running k = some (.run requested expected, .done (.ok ())) →
      ∃ t, c.state.cleared = some t ∧ t.disposition = .forward ∧
        c.state.enabled = t.targetEnabled) ∧
    (∀ k requested expected outcome t,
      c.running k = some (.run requested expected, .done outcome) →
      c.state.control.exclusive = some k → c.state.cleared = some t →
      t.disposition = .rollback → ∃ e, outcome = .error e) ∧
    (c.state.admitted ≠ [] → c.state.record = none) := by
  have sound := clients_keep.sound untouched_begins reachable
  have finished : ∀ k requested expected,
      c.running k = some (.run requested expected, .done (.ok ())) → Finished k c.state :=
    fun k requested expected ended => sound.exit ended
  refine ⟨?_, ?_, sound.inv.journal, ?_, ?_, sound.inv.admitted⟩
  · intro labels d r run found
    exact identity_along reachable run found
  · intro label d step
    exact change_of_step reachable step
  · intro k requested expected ended
    obtain ⟨t, forward, held⟩ := finished k requested expected ended
    exact ⟨t, held.facts.1, forward, held.facts.2⟩
  · intro k requested expected outcome t ended _ cleared rollback
    cases outcome with
    | error e => exact ⟨e, rfl⟩
    | ok _ =>
        obtain ⟨t', forward, held⟩ := finished k requested expected ended
        have same : t' = t := Option.some.inj (held.facts.1.symm.trans cleared)
        rw [same, rollback] at forward
        cases forward

/-! ### A disabled background -/

def untouched : Control where
  record := none
  enabled := true
  control := .unlocked
  admission := .unlocked
  admitted := []
  journal := []
  cleared := none

def quiet : Answer where
  error := none
  effective := true
  enabled := true
  unixMs := 0
  state := ⟨"/home/user/.local/share", 1, 2⟩
  newV4 := "5b0c7f52-55c5-4c5e-9f1c-0a4b5d6e7f80"

/-- The first client disables the background, and then the second is admitted. -/
def disabling : List (Processes.Turn Answer Request Client) :=
  .spawn 0 (.run (some .disable) none) :: List.replicate 24 (.step 0 quiet) ++
    .spawn 1 .enterJobAdmission :: List.replicate 3 (.step 1 quiet)

/-- Whether a process has returned without an error. -/
def succeeded : Process Control Answer LifecycleControlError Unit → Bool
  | .done outcome => outcome.isOk
  | .step .. => false

private theorem disabled :
    ((clients fun _ => true).follow disabling ⟨untouched, fun _ => none⟩).map (fun c =>
      (c.state.enabled, c.state.admitted,
        (c.running 0).map fun job => (job.1, succeeded job.2))) =
      some (false, [1], some (.run (some .disable) none, true)) := by
  decide +kernel

theorem background_disabled_safely :
    ∃ c, (System fun _ => true).Reachable c ∧
      c.running 0 = some (.run (some .disable) none, .done (.ok ())) ∧ c.state.enabled = false ∧
      (∃ t, c.state.cleared = some t ∧ t.disposition = .forward ∧
        c.state.enabled = t.targetEnabled) ∧
      c.state.admitted = [1] ∧ c.state.record = none := by
  have start : (System fun _ => true).Reachable ⟨untouched, fun _ => none⟩ :=
    .of_init ⟨⟨rfl, rfl, rfl, rfl, rfl, rfl⟩, fun _ => rfl⟩
  obtain ⟨c, reached, state⟩ := Option.map_eq_some_iff.mp disabled
  have reachable := Processes.follow_reachable start reached
  simp only [Prod.mk.injEq, Option.map_eq_some_iff] at state
  obtain ⟨off, admitted, ⟨request, p⟩, ended, same, returned⟩ := state
  subst same
  cases p with
  | step act next => cases returned
  | done outcome =>
    cases outcome with
    | error e => cases returned
    | ok _ =>
      obtain ⟨-, -, -, forward, -, unrecorded⟩ := background_transitions_safe reachable
      refine ⟨c, reachable, ended, off, forward 0 _ _ ended, admitted, unrecorded ?_⟩
      simp [admitted]

end Clients

end DocumentSummarizer.Connect.Background
