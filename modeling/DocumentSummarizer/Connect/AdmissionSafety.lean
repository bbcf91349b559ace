import DocumentSummarizer.Connect.Orderly
import DocumentSummarizer.Connect.PackageLocks

/-! # Admission to the package root

A writer of the root holds the quiesce lock for itself, so whoever shares it
finds the files as it left them.  Guards are granted under the shared lock, from
what the files say.
-/

namespace DocumentSummarizer.Connect.Locking

open Library

/-- The participant may be restored: it is listed and pending, and the operation settles it. -/
structure MayStart (record : PackageRecord) (starter : Starter) : Prop where
  listed : ∃ participant ∈ record.participants, participant.uid = starter.uid ∧
    participant.appDataRoot = starter.appDataRoot ∧
    participant.runtimeRoot = starter.runtimeRoot ∧ participant.enabled = true ∧
    participant.settlement = .pending
  settling : record.phase = .settling
  kind : record.kind = .upgrade ∨ record.kind = .reinstall ∨
    (record.kind = .remove ∧ record.disposition = .rollback)

theorem mayStart_of_admits {record : PackageRecord} {starter : Starter}
    (h : admits record starter = true) : MayStart record starter := by
  simp only [admits, restores, Bool.and_eq_true, Bool.or_eq_true, beq_iff_eq, List.any_eq_true,
    Starter.matches] at h
  obtain ⟨⟨kinds, settling⟩, participant, mem, ⟨⟨⟨uid, appData⟩, runtime⟩, enabled⟩, pending⟩ := h
  constructor
  · exact ⟨participant, mem, uid, appData, runtime, enabled, pending⟩
  · exact settling
  · rcases kinds with (upgrade | reinstall) | remove
    · exact .inl upgrade
    · exact .inr (.inl reinstall)
    · exact .inr (.inr remove)

/-- No operation stands in the way of a job. -/
structure Clear (store : PackageStore) : Prop where
  quiesce : store.quiesce = none
  record : store.record = none

/-- No operation stands in the way of this starter. -/
structure Startable (store : PackageStore) (starter : Starter) : Prop where
  quiesce : store.quiesce = none
  record : ∀ record, store.record = some record → MayStart record starter

/-- Process `j` shares both admission locks. -/
structure Guarded (s : PackageRoot) (j : Pid) : Prop where
  quiesce : j ∈ s.quiesceLock.shared
  package : j ∈ s.packageLock.shared

structure RootInvariant (s : PackageRoot) : Prop where
  admitted : ∀ j ∈ s.admitted, Guarded s j ∧ Clear s.store
  started : ∀ guard ∈ s.started, Guarded s guard.1 ∧ Startable s.store guard.2

/-- What the others leave alone for process `k`: its locks and guards, and the files while it
holds the controller lock or shares the quiesce lock. -/
structure RootFrame (k : Pid) (s t : PackageRoot) : Prop where
  controller : t.controllerLock.exclusive = some k ↔ s.controllerLock.exclusive = some k
  quiesce : t.quiesceLock.exclusive = some k ↔ s.quiesceLock.exclusive = some k
  quiesceShared : k ∈ t.quiesceLock.shared ↔ k ∈ s.quiesceLock.shared
  packageShared : k ∈ t.packageLock.shared ↔ k ∈ s.packageLock.shared
  admitted : k ∈ t.admitted ↔ k ∈ s.admitted
  started : ∀ starter, (k, starter) ∈ t.started ↔ (k, starter) ∈ s.started
  held : s.controllerLock.exclusive = some k → t.store = s.store
  gate : k ∈ s.quiesceLock.shared → t.store = s.store

/-- What one step does to the files and the guards. -/
structure RootChange (s t : PackageRoot) : Prop where
  written : t.store ≠ s.store → s.admitted = [] ∧ s.started = []
  admitted : ∀ j ∈ t.admitted, j ∉ s.admitted → Clear s.store
  started : ∀ guard ∈ t.started, guard ∉ s.started → Startable s.store guard.2

def rootDiscipline : Discipline PackageRoot Pid where
  inv := RootInvariant
  frame := RootFrame
  change := RootChange
  frame_refl := by
    intro k s
    exact ⟨Iff.rfl, Iff.rfl, Iff.rfl, Iff.rfl, Iff.rfl, fun _ => Iff.rfl, fun _ => rfl,
      fun _ => rfl⟩
  frame_trans := by
    intro k s t u left right
    constructor
    · exact right.controller.trans left.controller
    · exact right.quiesce.trans left.quiesce
    · exact right.quiesceShared.trans left.quiesceShared
    · exact right.packageShared.trans left.packageShared
    · exact right.admitted.trans left.admitted
    · exact fun starter => (right.started starter).trans (left.started starter)
    · exact fun mine => (right.held (left.controller.mpr mine)).trans (left.held mine)
    · exact fun mine => (right.gate (left.quiesceShared.mpr mine)).trans (left.gate mine)

/-! ## The steps a process may take -/

section Steps

variable {k : Pid} {s : PackageRoot}

/-- A process that neither holds the controller lock nor a guard. -/
structure Unguarded (k : Pid) (s : PackageRoot) : Prop where
  admitted : k ∉ s.admitted
  started : ∀ starter, (k, starter) ∉ s.started

/-- What a step of `k` does to the locks as the others see them. -/
structure OthersKeep (k : Pid) (s t : PackageRoot) : Prop where
  controller : ∀ j, j ≠ k →
    (t.controllerLock.exclusive = some j ↔ s.controllerLock.exclusive = some j)
  quiesce : ∀ j, j ≠ k → (t.quiesceLock.exclusive = some j ↔ s.quiesceLock.exclusive = some j)
  quiesceShared : ∀ j, j ≠ k → (j ∈ t.quiesceLock.shared ↔ j ∈ s.quiesceLock.shared)
  packageShared : ∀ j, j ≠ k → (j ∈ t.packageLock.shared ↔ j ∈ s.packageLock.shared)

theorem OthersKeep.guarded {t : PackageRoot} {j : Pid} (h : OthersKeep k s t) (other : j ≠ k)
    (guarded : Guarded s j) : Guarded t j :=
  ⟨(h.quiesceShared j other).mpr guarded.quiesce, (h.packageShared j other).mpr guarded.package⟩

theorem allows_locks (inv : RootInvariant s) (unguarded : Unguarded k s) {t : PackageRoot}
    (others : OthersKeep k s t) (store : t.store = s.store) (admitted : t.admitted = s.admitted)
    (started : t.started = s.started) : rootDiscipline.Allows k s t where
  inv := {
    admitted := by
      intro j mem
      rw [admitted] at mem
      have other : j ≠ k := fun same => unguarded.admitted (same ▸ mem)
      obtain ⟨guarded, clear⟩ := inv.admitted j mem
      exact ⟨others.guarded other guarded, store ▸ clear⟩
    started := by
      intro guard mem
      rw [started] at mem
      have other : guard.1 ≠ k := fun same => unguarded.started guard.2 (same ▸ mem)
      obtain ⟨guarded, startable⟩ := inv.started guard mem
      exact ⟨others.guarded other guarded, store ▸ startable⟩ }
  frame := by
    intro j other
    constructor
    · exact others.controller j other
    · exact others.quiesce j other
    · exact others.quiesceShared j other
    · exact others.packageShared j other
    · rw [admitted]
    · exact fun starter => by rw [started]
    · exact fun _ => store
    · exact fun _ => store
  change := {
    written := fun changed => absurd store changed
    admitted := fun j mem new => absurd (admitted ▸ mem) new
    started := fun guard mem new => absurd (started ▸ mem) new }

theorem allows_same (inv : RootInvariant s) : rootDiscipline.Allows k s s where
  inv := inv
  frame := fun j _ => rootDiscipline.frame_refl j s
  change := ⟨fun changed => absurd rfl changed, fun _ mem new => absurd mem new,
    fun _ mem new => absurd mem new⟩

/-- The holder of the controller and the quiesce lock writes the files: there is no guard. -/
theorem allows_store (controller : s.controllerLock.exclusive = some k)
    (quiesce : s.quiesceLock.exclusive = some k) (inv : RootInvariant s) (store : PackageStore) :
    rootDiscipline.Allows k s { s with store := store } := by
  have unshared := FileLock.shared_nil quiesce
  have no_guard : ∀ j, ¬ Guarded s j := by
    intro j guarded
    have shared := guarded.quiesce
    rw [unshared] at shared
    cases shared
  have no_job : s.admitted = [] := by
    apply List.eq_nil_iff_forall_not_mem.mpr
    exact fun j mem => no_guard j (inv.admitted j mem).1
  have no_start : s.started = [] := by
    apply List.eq_nil_iff_forall_not_mem.mpr
    exact fun guard mem => no_guard guard.1 (inv.started guard mem).1
  constructor
  · constructor
    · intro j mem
      change j ∈ s.admitted at mem
      rw [no_job] at mem
      cases mem
    · intro guard mem
      change guard ∈ s.started at mem
      rw [no_start] at mem
      cases mem
  · intro j other
    refine ⟨Iff.rfl, Iff.rfl, Iff.rfl, Iff.rfl, Iff.rfl, fun _ => Iff.rfl, ?_, ?_⟩
    · intro held
      rw [controller] at held
      exact absurd (Option.some.inj held).symm other
    · intro shared
      rw [unshared] at shared
      cases shared
  · exact ⟨fun _ => ⟨no_job, no_start⟩, fun _ mem new => absurd mem new,
      fun _ mem new => absurd mem new⟩

theorem allows_releaseAll (inv : RootInvariant s) :
    rootDiscipline.Allows k s (releaseAll k s) := by
  have others : OthersKeep k s (releaseAll k s) :=
    ⟨fun j other => FileLock.unlock_exclusive_other other,
      fun j other => FileLock.unlock_exclusive_other other,
      fun j other => FileLock.unlock_shared_other other,
      fun j other => FileLock.unlock_shared_other other⟩
  have still_admitted : ∀ j, j ∈ (releaseAll k s).admitted ↔ j ∈ s.admitted ∧ j ≠ k := by
    simp [releaseAll]
  have still_started : ∀ guard, guard ∈ (releaseAll k s).started ↔
      guard ∈ s.started ∧ guard.1 ≠ k := by
    simp [releaseAll]
  constructor
  · constructor
    · intro j mem
      obtain ⟨there, other⟩ := (still_admitted j).mp mem
      obtain ⟨guarded, clear⟩ := inv.admitted j there
      exact ⟨others.guarded other guarded, clear⟩
    · intro guard mem
      obtain ⟨there, other⟩ := (still_started guard).mp mem
      obtain ⟨guarded, startable⟩ := inv.started guard there
      exact ⟨others.guarded other guarded, startable⟩
  · intro j other
    constructor
    · exact others.controller j other
    · exact others.quiesce j other
    · exact others.quiesceShared j other
    · exact others.packageShared j other
    · simp [still_admitted, other]
    · intro starter
      simp [still_started, other]
    · exact fun _ => rfl
    · exact fun _ => rfl
  · refine ⟨fun changed => absurd rfl changed, ?_, ?_⟩
    · exact fun j mem new => absurd ((still_admitted j).mp mem).1 new
    · exact fun guard mem new => absurd ((still_started guard).mp mem).1 new

theorem allows_admission (inv : RootInvariant s) (guarded : Guarded s k) (clear : Clear s.store) :
    rootDiscipline.Allows k s { s with admitted := k :: s.admitted } := by
  constructor
  · constructor
    · intro j mem
      change j ∈ k :: s.admitted at mem
      cases mem with
      | head => exact ⟨⟨guarded.quiesce, guarded.package⟩, clear⟩
      | tail _ there =>
          obtain ⟨other, _⟩ := inv.admitted j there
          exact ⟨⟨other.quiesce, other.package⟩, clear⟩
    · intro guard mem
      obtain ⟨other, startable⟩ := inv.started guard mem
      exact ⟨⟨other.quiesce, other.package⟩, startable⟩
  · intro j other
    refine ⟨Iff.rfl, Iff.rfl, Iff.rfl, Iff.rfl, ?_, fun _ => Iff.rfl, fun _ => rfl, fun _ => rfl⟩
    simp [other]
  · exact ⟨fun changed => absurd rfl changed, fun _ _ _ => clear, fun _ mem new => absurd mem new⟩

theorem allows_start {starter : Starter} (inv : RootInvariant s) (guarded : Guarded s k)
    (startable : Startable s.store starter) :
    rootDiscipline.Allows k s { s with started := (k, starter) :: s.started } := by
  constructor
  · constructor
    · intro j mem
      obtain ⟨other, clear⟩ := inv.admitted j mem
      exact ⟨⟨other.quiesce, other.package⟩, clear⟩
    · intro guard mem
      change guard ∈ (k, starter) :: s.started at mem
      cases mem with
      | head => exact ⟨⟨guarded.quiesce, guarded.package⟩, startable⟩
      | tail _ there =>
          obtain ⟨other, known⟩ := inv.started guard there
          exact ⟨⟨other.quiesce, other.package⟩, known⟩
  · intro j other
    refine ⟨Iff.rfl, Iff.rfl, Iff.rfl, Iff.rfl, Iff.rfl, ?_, fun _ => rfl, fun _ => rfl⟩
    intro starter'
    simp [other]
  · refine ⟨fun changed => absurd rfl changed, fun _ mem new => absurd mem new, ?_⟩
    intro guard mem new
    change guard ∈ (k, starter) :: s.started at mem
    cases mem with
    | head => exact startable
    | tail _ there => exact absurd there new

end Steps

/-! ## The writers -/

section Writers

variable {k : Pid} {s : PackageRoot} {platform : Platform} {env : Environment}

/-- Process `k` is the controller. -/
structure Controls (k : Pid) (s : PackageRoot) : Prop where
  controller : s.controllerLock.exclusive = some k
  unguarded : Unguarded k s

/-- Process `k` may write the files. -/
structure Writes (k : Pid) (s : PackageRoot) : Prop where
  controls : Controls k s
  quiesce : s.quiesceLock.exclusive = some k

theorem stable_unguarded : rootDiscipline.Stable k (Unguarded k) := by
  intro s t _ frame h
  exact ⟨fun mem => h.admitted (frame.admitted.mp mem),
    fun starter mem => h.started starter ((frame.started starter).mp mem)⟩

theorem stable_controls : rootDiscipline.Stable k (Controls k) := by
  intro s t inv frame h
  exact ⟨frame.controller.mpr h.controller, stable_unguarded s t inv frame h.unguarded⟩

theorem stable_writes : rootDiscipline.Stable k (Writes k) := by
  intro s t inv frame h
  exact ⟨stable_controls s t inv frame h.controls, frame.quiesce.mpr h.quiesce⟩

/-- `p` ends with the process able to write, or fails. -/
def Achieves {α : Type} (k : Pid) (p : RootStep α) (s : PackageRoot) : Prop :=
  rootDiscipline.Sat k p (fun _ => Writes k) (fun _ _ => True) s

theorem achieves_pure {α : Type} {a : α} (h : Writes k s) : Achieves k (pure a) s :=
  Discipline.sat_pure stable_writes h

theorem achieves_fail {α : Type} {e : PackageControlError} :
    Achieves k (Process.fail e : RootStep α) s :=
  Discipline.sat_fail Discipline.stable_const trivial

theorem Achieves.bind {α β : Type} {p : RootStep α} {next : α → RootStep β}
    (inv : RootInvariant s) (first : Achieves k p s)
    (rest : ∀ a t, RootInvariant t → Writes k t → Achieves k (next a) t) :
    Achieves k (p >>= next) s :=
  Discipline.Sat.bind inv first rest

theorem sat_lockWhen {enabled : PackageRoot → Bool} {change : PackageRoot → PackageRoot}
    {P Q : PackageRoot → Prop} (stable : rootDiscipline.Stable k P) (h : P s)
    (later : rootDiscipline.Stable k Q)
    (moves : ∀ t, RootInvariant t → P t → enabled t = true →
      rootDiscipline.Allows k t (change t) ∧ Q (change t)) :
    rootDiscipline.Sat k (lockWhen enabled change) (fun _ => Q) (fun _ _ => True) s := by
  intro t inv frame i u moved
  have before := stable s t inv frame h
  cases error : i.error with
  | some e =>
      simp only [error, Option.some.injEq] at moved ⊢
      subst moved
      exact ⟨allows_same inv, fun _ _ _ => trivial⟩
  | none =>
      simp only [error] at moved ⊢
      by_cases ready : enabled t = true
      · rw [if_pos ready] at moved
        cases moved
        obtain ⟨allowed, after⟩ := moves t inv before ready
        exact ⟨allowed, fun v inv frame => later _ v inv frame after⟩
      · rw [if_neg ready] at moved
        cases moved

theorem isFree_iff {lock : FileLock Pid} :
    lock.isFree = true ↔ lock.exclusive = none ∧ lock.shared = [] := by
  simp [FileLock.isFree]

theorem sat_lockController (h : Unguarded k s) :
    rootDiscipline.Sat k (lockController k) (fun _ => Controls k) (fun _ _ => True) s := by
  apply sat_lockWhen stable_unguarded h stable_controls
  intro t inv unguarded ready
  obtain ⟨free, unshared⟩ := isFree_iff.mp ready
  constructor
  · refine allows_locks inv unguarded ?_ rfl rfl rfl
    refine ⟨fun j other => ?_, fun _ _ => Iff.rfl, fun _ _ => Iff.rfl, fun _ _ => Iff.rfl⟩
    simp [FileLock.takeExclusive, free, other.symm]
  · exact ⟨rfl, unguarded.admitted, unguarded.started⟩

theorem sat_lockQuiesce (h : Controls k s) : Achieves k (lockQuiesce k) s := by
  apply sat_lockWhen stable_controls h stable_writes
  intro t inv controls ready
  obtain ⟨free, unshared⟩ := isFree_iff.mp ready
  constructor
  · refine allows_locks inv controls.unguarded ?_ rfl rfl rfl
    refine ⟨fun _ _ => Iff.rfl, fun j other => ?_, fun j other => ?_, fun _ _ => Iff.rfl⟩
    · simp [FileLock.takeExclusive, free, other.symm]
    · simp [FileLock.takeExclusive, unshared]
  · exact ⟨⟨controls.controller, controls.unguarded.admitted, controls.unguarded.started⟩, rfl⟩

theorem achieves_lockPackage (h : Writes k s) : Achieves k (lockPackage k) s := by
  apply sat_lockWhen stable_writes h stable_writes
  intro t inv writes ready
  obtain ⟨free, unshared⟩ := isFree_iff.mp ready
  have controls := writes.controls
  constructor
  · refine allows_locks inv controls.unguarded ?_ rfl rfl rfl
    refine ⟨fun _ _ => Iff.rfl, fun _ _ => Iff.rfl, fun _ _ => Iff.rfl, fun j other => ?_⟩
    simp [FileLock.takeExclusive, unshared]
  · exact ⟨⟨controls.controller, controls.unguarded.admitted, controls.unguarded.started⟩,
      writes.quiesce⟩

theorem achieves_unlockPackage (h : Writes k s) : Achieves k (unlockPackage k) s := by
  apply sat_lockWhen stable_writes h stable_writes
  intro t inv writes _
  have controls := writes.controls
  constructor
  · refine allows_locks inv controls.unguarded ?_ rfl rfl rfl
    exact ⟨fun _ _ => Iff.rfl, fun _ _ => Iff.rfl, fun _ _ => Iff.rfl,
      fun j other => FileLock.unlock_shared_other other⟩
  · exact ⟨⟨controls.controller, controls.unguarded.admitted, controls.unguarded.started⟩,
      writes.quiesce⟩

theorem sat_unlockQuiesce (h : Writes k s) :
    rootDiscipline.Sat k (unlockQuiesce k) (fun _ => Controls k) (fun _ _ => True) s := by
  apply sat_lockWhen stable_writes h stable_controls
  intro t inv writes _
  have controls := writes.controls
  constructor
  · refine allows_locks inv controls.unguarded ?_ rfl rfl rfl
    exact ⟨fun _ _ => Iff.rfl, fun j other => FileLock.unlock_exclusive_other other,
      fun j other => FileLock.unlock_shared_other other, fun _ _ => Iff.rfl⟩
  · exact ⟨controls.controller, controls.unguarded.admitted, controls.unguarded.started⟩

theorem achieves_writes {α : Type} {stores : List PackageStore}
    {outcome : Except PackageControlError α} (h : Writes k s) :
    Achieves k (writes stores outcome) s := by
  induction stores generalizing s with
  | nil =>
      cases outcome with
      | ok a => exact achieves_pure h
      | error e => exact achieves_fail
  | cons store rest ih =>
      intro t inv frame i u moved
      cases moved
      have held := stable_writes s t inv frame h
      have controls := held.controls
      constructor
      · exact allows_store controls.controller held.quiesce inv store
      · exact ih ⟨⟨controls.controller, controls.unguarded.admitted,
          controls.unguarded.started⟩, held.quiesce⟩

theorem achieves_perform {α : Type} {program : Program α} (h : Writes k s) :
    Achieves k (perform program) s := by
  intro t inv frame i u moved
  cases moved
  exact ⟨allows_same inv, achieves_writes (stable_writes s t inv frame h)⟩

/-! ### The actions of the controller -/

variable {record : PackageRecord}

section

variable (inv : RootInvariant s)

include inv

section

variable (h : Writes k s)

include h

theorem achieves_restoreUnlocked {participant : Participant}
    :
    Achieves k (restoreUnlocked platform env k record participant) s := by
  apply Achieves.bind inv (achieves_unlockPackage h)
  intro _ t inv writes
  apply Discipline.Sat.bind inv (sat_unlockQuiesce writes)
  intro _ u inv controls
  apply Achieves.bind inv (sat_lockQuiesce controls)
  intro _ v inv writes
  apply Achieves.bind inv (achieves_lockPackage writes)
  intro _ w _ writes
  exact achieves_perform writes

theorem achieves_settleParticipant {restoring : Bool}
    {participant : Participant} :
    Achieves k (settleParticipant platform env k restoring record participant) s := by
  cases restoring with
  | false =>
      apply Achieves.bind inv (achieves_perform h)
      intro _ t _ writes
      exact achieves_pure writes
  | true =>
      apply Achieves.bind inv (achieves_perform h)
      intro recovery t inv writes
      cases recovery with
      | ready settlement =>
          apply Achieves.bind inv (achieves_perform writes)
          intro _ u _ writes
          exact achieves_pure writes
      | absent =>
          apply Achieves.bind inv (achieves_perform writes)
          intro _ u inv writes
          exact achieves_restoreUnlocked inv writes
      | stopAndRetry =>
          apply Achieves.bind inv (achieves_perform writes)
          intro _ u inv writes
          apply Achieves.bind inv (achieves_perform writes)
          intro _ v inv writes
          exact achieves_restoreUnlocked inv writes

theorem achieves_settleParticipants {restoring : Bool}
    {done rest : List Participant} :
    Achieves k (settleParticipants platform env k restoring record done rest) s := by
  induction rest generalizing done s with
  | nil => exact achieves_pure h
  | cons participant rest ih =>
      unfold settleParticipants
      by_cases settled : participant.settlement ≠ .pending
      · rw [if_pos settled]
        exact ih inv h
      · rw [if_neg settled]
        apply Achieves.bind inv (achieves_perform h)
        intro participant t inv writes
        apply Achieves.bind inv (achieves_settleParticipant inv writes)
        intro settlement u inv writes
        apply Achieves.bind inv (achieves_perform writes)
        intro _ v inv writes
        exact ih inv writes

theorem achieves_settle {kind : PackageKind} {restoring : Bool}
    :
    Achieves k (settle platform env k kind restoring record) s := by
  have rest : ∀ (record : PackageRecord) (t : PackageRoot), RootInvariant t → Writes k t →
      Achieves k (do
        if record.phase = .settling then
          let participants ←
            settleParticipants platform env k restoring record [] record.participants
          let settled := { record with participants := participants }
          perform (writeReceipt platform kind restoring settled)
          let final := { settled with phase := .finalizing }
          perform final.write
          return final
        else
          perform (do
            ensure (!record.participants.any (·.settlement == .pending))
            validateReceipt platform kind restoring record)
          return record) t := by
    intro record t inv writes
    by_cases settling : record.phase = .settling
    · rw [if_pos settling]
      apply Achieves.bind inv (achieves_settleParticipants inv writes)
      intro participants u inv writes
      apply Achieves.bind inv (achieves_perform writes)
      intro _ v inv writes
      apply Achieves.bind inv (achieves_perform writes)
      intro _ w _ writes
      exact achieves_pure writes
    · rw [if_neg settling]
      apply Achieves.bind inv (achieves_perform writes)
      intro _ u _ writes
      exact achieves_pure writes
  unfold settle
  by_cases stopped : record.phase = .publishersStopped
  · simp only [if_pos stopped]
    apply Achieves.bind inv (achieves_perform h)
    intro _ t inv writes
    exact rest { record with phase := .settling } t inv writes
  · simp only [if_neg stopped]
    exact rest record s inv h

theorem achieves_finish {kind : PackageKind} {target : String}
    : Achieves k (finish platform env k kind target) s := by
  apply Achieves.bind inv (achieves_perform h)
  intro record t inv writes
  apply Achieves.bind inv (achieves_settle inv writes)
  intro settled u _ writes
  exact achieves_perform writes

theorem achieves_abortRemove {target : String} :
    Achieves k (abortRemove platform env k target) s := by
  apply Achieves.bind inv (achieves_perform h)
  intro present t inv writes
  cases present with
  | false => exact achieves_pure writes
  | true => exact achieves_finish inv writes

theorem achieves_recoverInstall {target : String} :
    Achieves k (recoverInstall platform env k target) s := by
  apply Achieves.bind inv (achieves_perform h)
  intro record t inv writes
  cases record.kind with
  | upgrade | reinstall => exact achieves_finish inv writes
  | remove | purge => exact achieves_fail

theorem achieves_resumeRemoval :
    Achieves k (resumeRemoval platform env k) s := by
  apply Achieves.bind inv (achieves_perform h)
  intro found t inv writes
  cases found with
  | none => exact achieves_pure writes
  | some record =>
      cases kind : record.kind with
      | remove =>
          simp only [kind]
          apply Achieves.bind inv (achieves_perform writes)
          intro _ u inv writes
          exact achieves_finish inv writes
      | reinstall =>
          simp only [kind]
          exact achieves_pure writes
      | upgrade | purge =>
          simp only [kind]
          exact achieves_fail

theorem achieves_prepareOperation {kind : PackageKind} {source target : String}
    :
    Achieves k (prepareOperation platform env k kind source target) s := by
  apply Achieves.bind inv (achieves_perform h)
  intro intent t inv writes
  apply Achieves.bind inv (achieves_perform writes)
  intro _ u inv writes
  apply Achieves.bind inv (achieves_lockPackage writes)
  intro _ v _ writes
  exact achieves_perform writes

theorem achieves_adoptBootstrap {intent : QuiesceIntent}
    : Achieves k (adoptBootstrap platform env k intent) s := by
  have adopts : ∀ (bootstrap : BootstrapQuiesce) (t : PackageRoot), RootInvariant t →
      Writes k t → Achieves k (do
        perform (prepareFromIntent platform env intent)
        lockPackage k
        perform (completeAdoption platform intent bootstrap)) t := by
    intro bootstrap t inv writes
    apply Achieves.bind inv (achieves_perform writes)
    intro _ u inv writes
    apply Achieves.bind inv (achieves_lockPackage writes)
    intro _ v _ writes
    exact achieves_perform writes
  apply Achieves.bind inv (achieves_perform h)
  intro bootstrap t inv writes
  cases bootstrap.phase with
  | quarantining => exact achieves_fail
  | quiesced | adopted =>
      apply Achieves.bind inv (achieves_perform writes)
      intro _ u inv writes
      exact adopts bootstrap u inv writes

theorem achieves_runWith {action : PackageAction} :
    Achieves k (runWith platform env k action) s := by
  cases action with
  | finishUpgrade target => exact achieves_finish inv h
  | abortRemove target => exact achieves_abortRemove inv h
  | finishRemove target =>
      apply Achieves.bind inv (achieves_perform h)
      intro _ t inv writes
      exact achieves_finish inv writes
  | finishPurge target => exact achieves_perform h
  | recoverInstall target => exact achieves_recoverInstall inv h
  | prepareReinstall target =>
      apply Achieves.bind inv (achieves_resumeRemoval inv h)
      intro _ t _ writes
      exact achieves_perform writes
  | initializeRoot | prepareUpgrade | prepareRemove | adoptBootstrap => exact achieves_pure h

end

theorem sat_run {action : PackageAction} (h : Unguarded k s) :
    Achieves k (run platform env k action) s := by
  apply Discipline.Sat.bind inv (sat_lockController h)
  intro _ t inv controls
  apply Achieves.bind inv (sat_lockQuiesce controls)
  intro _ u inv writes
  cases action with
  | prepareUpgrade source target => exact achieves_prepareOperation inv writes
  | prepareRemove target => exact achieves_prepareOperation inv writes
  | adoptBootstrap =>
      apply Achieves.bind inv (achieves_perform writes)
      intro intent v inv writes
      exact achieves_adoptBootstrap inv writes
  | initializeRoot | finishUpgrade | abortRemove | finishRemove | finishPurge | recoverInstall
  | prepareReinstall =>
      apply Achieves.bind inv (achieves_lockPackage writes)
      intro _ v inv writes
      exact achieves_runWith inv writes

theorem sat_script {program : Program Unit} (h : Unguarded k s) :
    Achieves k (script k program) s := by
  apply Discipline.Sat.bind inv (sat_lockController h)
  intro _ t inv controls
  apply Achieves.bind inv (sat_lockQuiesce controls)
  intro _ u _ writes
  exact achieves_perform writes

end

end Writers

/-! ## The providers -/

section Providers

variable {k : Pid} {s : PackageRoot} {platform : Platform} {starter : Starter}

/-- Process `k` shares the quiesce lock and knows this of the files. -/
structure Shares (k : Pid) (known : PackageStore → Prop) (s : PackageRoot) : Prop where
  unguarded : Unguarded k s
  quiesce : k ∈ s.quiesceLock.shared
  known : known s.store

/-- Process `k` shares both locks. -/
structure SharesBoth (k : Pid) (known : PackageStore → Prop) (s : PackageRoot) : Prop where
  shares : Shares k known s
  package : k ∈ s.packageLock.shared

variable {known : PackageStore → Prop}

theorem stable_shares :
    rootDiscipline.Stable k (Shares k known) := by
  intro s t inv frame h
  exact ⟨stable_unguarded s t inv frame h.unguarded, frame.quiesceShared.mpr h.quiesce,
    (frame.gate h.quiesce).symm ▸ h.known⟩

theorem stable_sharesBoth :
    rootDiscipline.Stable k (SharesBoth k known) := by
  intro s t inv frame h
  exact ⟨stable_shares s t inv frame h.shares, frame.packageShared.mpr h.package⟩

theorem sat_shareQuiesce (h : Unguarded k s) :
    rootDiscipline.Sat k (shareQuiesce k) (fun _ => Shares k fun _ => True)
      (fun _ _ => True) s := by
  apply sat_lockWhen stable_unguarded h stable_shares
  intro t inv unguarded ready
  have free := Option.isNone_iff_eq_none.mp ready
  constructor
  · refine allows_locks inv unguarded ?_ rfl rfl rfl
    refine ⟨fun _ _ => Iff.rfl, fun j other => ?_, fun j other => ?_, fun _ _ => Iff.rfl⟩
    · simp [FileLock.takeShared, free]
    · simp [FileLock.takeShared, other]
  · exact ⟨⟨unguarded.admitted, unguarded.started⟩, List.mem_cons_self, trivial⟩

theorem sat_sharePackage (h : Shares k known s) :
    rootDiscipline.Sat k (sharePackage k) (fun _ => SharesBoth k known) (fun _ _ => True) s := by
  apply sat_lockWhen stable_shares h stable_sharesBoth
  intro t inv shares _
  constructor
  · refine allows_locks inv shares.unguarded ?_ rfl rfl rfl
    refine ⟨fun _ _ => Iff.rfl, fun _ _ => Iff.rfl, fun _ _ => Iff.rfl, fun j other => ?_⟩
    simp [FileLock.takeShared, other]
  · exact ⟨⟨⟨shares.unguarded.admitted, shares.unguarded.started⟩, shares.quiesce, shares.known⟩,
      List.mem_cons_self⟩

theorem sat_readQuiesce (h : Shares k (fun _ => True) s) :
    rootDiscipline.Sat k (readStore (·.quiesce))
      (fun intent => Shares k fun store => store.quiesce = intent) (fun _ _ => True) s := by
  apply Discipline.sat_atomic stable_shares h (fun _ => stable_shares)
    fun _ => Discipline.stable_const
  intro i t inv shares
  cases error : i.error with
  | some e => exact ⟨allows_same inv, trivial⟩
  | none => exact ⟨allows_same inv, shares.unguarded, shares.quiesce, rfl⟩

theorem sat_readRecord (h : SharesBoth k known s) :
    rootDiscipline.Sat k (readStore (·.record))
      (fun record => SharesBoth k fun store => known store ∧ store.record = record)
      (fun _ _ => True) s := by
  apply Discipline.sat_atomic stable_sharesBoth h (fun _ => stable_sharesBoth)
    fun _ => Discipline.stable_const
  intro i t inv both
  cases error : i.error with
  | some e => exact ⟨allows_same inv, trivial⟩
  | none =>
      have shares := both.shares
      exact ⟨allows_same inv, ⟨shares.unguarded, shares.quiesce, shares.known, rfl⟩,
        both.package⟩

theorem sat_grantStartup (h : SharesBoth k (Startable · starter) s) :
    rootDiscipline.Sat k (grantStartup k starter) (fun _ _ => True) (fun _ _ => True) s := by
  apply Discipline.sat_atomic stable_sharesBoth h (fun _ => Discipline.stable_const)
    fun _ => Discipline.stable_const
  intro i t inv both
  exact ⟨allows_start inv ⟨both.shares.quiesce, both.package⟩ both.shares.known, trivial⟩

theorem sat_enterAdmissionStore (inv : RootInvariant s) (h : Unguarded k s) :
    rootDiscipline.Sat k (enterAdmissionStore k) (fun _ _ => True) (fun _ _ => True) s := by
  apply Discipline.Sat.bind inv (sat_shareQuiesce h)
  intro _ t inv shares
  apply Discipline.Sat.bind inv (sat_readQuiesce shares)
  intro intent u inv shares
  cases intent with
  | some intent => exact Discipline.sat_fail Discipline.stable_const trivial
  | none =>
      apply Discipline.Sat.bind inv (sat_sharePackage shares)
      intro _ v inv both
      apply Discipline.Sat.bind inv (sat_readRecord both)
      intro record w inv both
      cases record with
      | some record => exact Discipline.sat_fail Discipline.stable_const trivial
      | none =>
          apply Discipline.sat_atomic stable_sharesBoth both (fun _ => Discipline.stable_const)
            fun _ => Discipline.stable_const
          intro i x inv both
          have known := both.shares.known
          exact ⟨allows_admission inv ⟨both.shares.quiesce, both.package⟩ ⟨known.1, known.2⟩,
            trivial⟩

theorem sat_enterStartupAdmissionStore (inv : RootInvariant s) (h : Unguarded k s) :
    rootDiscipline.Sat k (enterStartupAdmissionStore platform k starter) (fun _ _ => True)
      (fun _ _ => True) s := by
  have refused : ∀ {t : PackageRoot}, rootDiscipline.Sat k
      (Process.fail .conflict : RootStep Unit) (fun _ _ => True) (fun _ _ => True) t :=
    Discipline.sat_fail Discipline.stable_const trivial
  apply Discipline.Sat.bind inv (sat_shareQuiesce h)
  intro _ t inv shares
  apply Discipline.Sat.bind inv (sat_readQuiesce shares)
  intro intent u inv shares
  cases intent with
  | some intent => exact refused
  | none =>
      apply Discipline.Sat.bind inv (sat_sharePackage shares)
      intro _ v inv both
      apply Discipline.Sat.bind inv (sat_readRecord both)
      intro found w inv both
      cases found with
      | none =>
          apply sat_grantStartup
          have known := both.shares.known
          refine ⟨⟨both.shares.unguarded, both.shares.quiesce, known.1, ?_⟩, both.package⟩
          intro record present
          rw [known.2] at present
          cases present
      | some record =>
          have checked : admits record starter = true → ∀ {x : PackageRoot},
              SharesBoth k (fun store => store.quiesce = none ∧ store.record = some record) x →
              SharesBoth k (Startable · starter) x := by
            intro admitted x both
            have known := both.shares.known
            refine ⟨⟨both.shares.unguarded, both.shares.quiesce, known.1, ?_⟩, both.package⟩
            intro other present
            rw [known.2, Option.some.injEq] at present
            exact present ▸ mayStart_of_admits admitted
          have identity : rootDiscipline.Sat k
              (.atomic fun answer s => (answer.directories, s) : RootStep (UInt64 × UInt64))
              (fun _ => SharesBoth k fun store =>
                store.quiesce = none ∧ store.record = some record) (fun _ _ => True) w := by
            apply Discipline.sat_atomic stable_sharesBoth both (fun _ => stable_sharesBoth)
              fun _ => Discipline.stable_const
            intro i x inv both
            cases i.directories with
            | error e => exact ⟨allows_same inv, trivial⟩
            | ok identity => exact ⟨allows_same inv, both⟩
          simp only
          split
          · exact refused
          rename_i valid
          simp only [not_or, Bool.not_eq_false] at valid
          split
          · exact refused
          apply Discipline.Sat.bind inv identity
          intro found x inv both
          split
          · exact refused
          · exact sat_grantStartup (checked valid.2 both)

end Providers

/-! ## After the window -/

/-- The operation is still the one that was recorded before the locks were given up. -/
structure Unmoved (record current : PackageRecord) : Prop where
  generation : current.generation = record.generation
  kind : current.kind = record.kind
  disposition : current.disposition = record.disposition
  phase : current.phase = .settling
  participants : current.participants = record.participants

section Window

variable {k : Pid} {platform : Platform} {env : Environment}

variable {events : List (Process.Event PackageRoot Answer)}

theorem lockWhen_ends {enabled : PackageRoot → Bool} {change : PackageRoot → PackageRoot}
    {outcome : Except PackageControlError Unit}
    (h : (lockWhen enabled change).Ends events outcome) : events.length = 1 := by
  cases h with
  | @step _ _ i s _ _ _ _ rest =>
      cases error : i.error with
      | some e =>
          simp only [error] at rest
          cases rest
          rfl
      | none =>
          simp only [error] at rest
          cases rest
          rfl

theorem writes_ends {α : Type} {stores : List PackageStore}
    {outcome result : Except PackageControlError α}
    (h : (writes stores outcome).Ends events result) : result = outcome := by
  induction stores generalizing events with
  | nil =>
      cases h with
      | done => rfl
  | cons store rest ih =>
      cases h with
      | step _ rest => exact ih rest

/-- A sequential part ends as its program does from the files it found first. -/
theorem perform_ends {α : Type} {program : Program α}
    {outcome : Except PackageControlError α} (h : (perform program).Ends events outcome) :
    ∃ first rest, events = first :: rest ∧ (program first.found.store).outcome = outcome := by
  cases h with
  | @step _ _ i s t rest _ _ after => exact ⟨⟨i, s, t⟩, rest, rfl, (writes_ends after).symm⟩

theorem restoreParticipant_unmoved {record : PackageRecord} {participant : Participant}
    {store : PackageStore} :
    Durable.Keeps (· = store) (restoreParticipant platform env record participant) store fun _ =>
      ∃ current, store.record = some current ∧ Unmoved record current := by
  unfold restoreParticipant Platform.read
  refine Durable.Keeps.bind (keeps_effect rfl) ?_
  intro _ t same _
  refine Durable.Keeps.bind (Durable.keeps_read_bind (keeps_readSized same)) ?_
  intro found u same_u read
  refine Durable.Keeps.bind (keeps_orConflict same_u) ?_
  intro current v same_v present
  refine Durable.Keeps.bind (keeps_ensure same_v) ?_
  intro _ w same_w checked
  simp only [Bool.and_eq_true, beq_iff_eq] at checked
  obtain ⟨⟨⟨⟨generation, kind⟩, disposition⟩, phase⟩, participants⟩ := checked
  have unmoved : ∃ current, store.record = some current ∧ Unmoved record current := by
    subst same
    exact ⟨current, read.symm.trans present, generation, kind, disposition, phase, participants⟩
  refine Durable.Keeps.bind (keeps_effect same_w) ?_
  intro settlement x same_x _
  refine Durable.Keeps.bind (keeps_effect same_x) ?_
  intro _ y same_y _
  exact Durable.keeps_pure same_y unmoved

/-- Whatever happens between its steps, a restore outside the locks returns only if the files
it finds once it has the locks again record the same operation. -/
theorem restoreUnlocked_unmoved {record : PackageRecord} {participant : Participant}
    {settlement : ParticipantSettlement}
    (h : (restoreUnlocked platform env k record participant).Ends events (.ok settlement)) :
    ∃ event, events[4]? = some event ∧ ∃ current, event.found.store.record = some current ∧
      Unmoved record current := by
  obtain ⟨first, rest, _, rfl, unlocked, h⟩ := h.of_bind
  obtain ⟨second, rest, _, rfl, released, h⟩ := h.of_bind
  obtain ⟨third, rest, _, rfl, locked, h⟩ := h.of_bind
  obtain ⟨fourth, rest, _, rfl, relocked, h⟩ := h.of_bind
  obtain ⟨event, after, rfl, returned⟩ := perform_ends h
  refine ⟨event, ?_, ?_⟩
  · simp [List.getElem?_append, lockWhen_ends unlocked, lockWhen_ends released,
      lockWhen_ends locked, lockWhen_ends relocked]
  · have kept := (@restoreParticipant_unmoved platform env record participant
      event.found.store).2
    rw [returned] at kept
    exact kept.2

end Window

/-! ## Every reachable state -/

theorem processes_keep {platform : Platform} :
    (processes platform).Keeps rootDiscipline Unguarded (fun _ _ _ _ => True)
      fun _ _ _ _ => True where
  idle_stable _ := stable_unguarded
  released k s inv := by
    refine ⟨allows_releaseAll inv, ?_, ?_⟩
    · simp [processes, releaseAll]
    · simp [processes, releaseAll]
  programs request k s inv idle := by
    have writes : ∀ {p : RootStep Unit}, Achieves k p s →
        rootDiscipline.Sat k p (fun _ _ => True) (fun _ _ => True) s :=
      fun achieves => achieves.weaken (fun _ _ _ _ => trivial) fun _ _ _ _ => trivial
    cases request with
    | run env action => exact writes (sat_run inv idle)
    | preinst version target generation legacy => exact writes (sat_script inv idle)
    | postrm => exact writes (sat_script inv idle)
    | enterAdmission => exact sat_enterAdmissionStore inv idle
    | enterStartup starter => exact sat_enterStartupAdmissionStore inv idle

theorem atRest_begins (s : PackageRoot) (start : AtRest s) :
    rootDiscipline.inv s ∧ ∀ k, Unguarded k s := by
  constructor
  · constructor
    · rw [start.admitted]
      nofun
    · rw [start.started]
      nofun
  · intro k
    constructor
    · rw [start.admitted]
      nofun
    · rw [start.started]
      exact fun _ => nofun

theorem RootChange.refl (s : PackageRoot) : RootChange s s :=
  ⟨fun changed => absurd rfl changed, fun _ mem new => absurd mem new,
    fun _ mem new => absurd mem new⟩

abbrev System (platform : Platform) :
    Machine (Configuration PackageRoot Answer PackageControlError Unit Request Pid)
      (Move Answer PackageControlError Unit Request Pid) :=
  (processes platform).machine AtRest

variable {platform : Platform}
  {c : Configuration PackageRoot Answer PackageControlError Unit Request Pid}

/-- In every interleaving: beside a job guard there is no quiesce or operation record and the files
do not change; a job guard is granted only where neither exists; a startup guard is granted, while
an operation is recorded, only to a participant that the operation is to restore, and nothing
changes this while it is held.  A restore returns from its window only to the same operation. -/
theorem admission_exclusive (reachable : (System platform).Reachable c) :
    (c.state.admitted ≠ [] → Clear c.state.store) ∧
    (∀ guard ∈ c.state.started, Startable c.state.store guard.2) ∧
    (∀ label d, (processes platform).Step c label d →
      (c.state.admitted ≠ [] ∨ c.state.started ≠ [] → d.state.store = c.state.store) ∧
      (∀ k ∈ d.state.admitted, k ∉ c.state.admitted → Clear c.state.store) ∧
      ∀ guard ∈ d.state.started, guard ∉ c.state.started →
        Startable c.state.store guard.2) ∧
    ∀ env k record participant events settlement,
      (restoreUnlocked platform env k record participant).Ends events (.ok settlement) →
      ∃ event, events[4]? = some event ∧ ∃ current, event.found.store.record = some current ∧
        Unmoved record current := by
  have sound := processes_keep.sound atRest_begins reachable
  refine ⟨?_, ?_, ?_, fun _ _ _ _ _ _ returned => restoreUnlocked_unmoved returned⟩
  · intro held
    obtain ⟨k, mem⟩ := List.exists_mem_of_ne_nil _ held
    exact (sound.inv.admitted k mem).2
  · exact fun guard mem => (sound.inv.started guard mem).2
  · intro label d step
    have change : RootChange c.state d.state := by
      rcases sound.change processes_keep step with same | change
      · rw [same]
        exact .refl c.state
      · exact change
    refine ⟨?_, change.admitted, change.started⟩
    intro held
    apply Classical.byContradiction
    intro written
    obtain ⟨no_job, no_start⟩ := change.written written
    rcases held with job | start
    · exact job no_job
    · exact start no_start

/-! ### A start within the window -/

def listed : Participant where
  uid := 1000
  user := "user"
  runtimeRoot := "/run/user/1000/documents"
  runtimeDevice := some 1
  runtimeInode := some 2
  appDataRoot := "/home/user/.local/share/documents"
  appDataDevice := 3
  appDataInode := 4
  controlRoot := "/home/user/.local/state/documents"
  controlDevice := 3
  controlInode := 5
  managerLink := "/home/user/.config/systemd/user/documents.service"
  managerParentDevice := 3
  managerParentInode := 6
  acknowledgementGeneration := firstUuid
  enabled := true
  settlement := .pending

/-- The first user, as it asks to start. -/
def starting : Starter :=
  ⟨listed.uid, listed.appDataRoot, listed.runtimeRoot⟩

/-- An upgrade whose settling was cut short. -/
def settling : PackageRecord where
  disposition := .forward
  formatVersion := formatVersion
  packageId := packageId
  generation := secondUuid
  kind := .upgrade
  phase := .settling
  sourceVersion := "0.1.0"
  targetVersion := "0.2.0"
  predecessorRemovalGeneration := none
  participants := [listed]

def interrupted : PackageRoot where
  store := { PackageStore.empty with record := some settling }
  controllerLock := .unlocked
  quiesceLock := .unlocked
  packageLock := .unlocked
  admitted := []
  started := []

def answered : Answer :=
  ⟨none, .ok (1, 2)⟩

/-- The provider of the first user starts while the upgrade is being finished. -/
theorem started_within_window :
    ∃ c, (System samplePlatform).Reachable c ∧ c.state.started = [(1, starting)] ∧
      MayStart settling starting := by
  have start : (System samplePlatform).Reachable ⟨interrupted, fun _ => none⟩ :=
    .of_init ⟨⟨rfl, rfl, rfl, rfl, rfl⟩, fun _ => rfl⟩
  have controller := start.next
    (.spawn (k := 0) (.run (sampleEnvironment firstUuid) (.finishUpgrade "0.2.0")) rfl)
  have c1 := controller.next (.step (k := 0) (i := answered) rfl rfl)
  have c2 := c1.next (.step (k := 0) (i := answered) rfl rfl)
  have c3 := c2.next (.step (k := 0) (i := answered) rfl rfl)
  have c4 := c3.next (.step (k := 0) (i := answered) rfl rfl)
  have c5 := c4.next (.step (k := 0) (i := answered) rfl rfl)
  have c6 := c5.next (.step (k := 0) (i := answered) rfl rfl)
  have c7 := c6.next (.step (k := 0) (i := answered) rfl rfl)
  have c8 := c7.next (.step (k := 0) (i := answered) rfl rfl)
  have c9 := c8.next (.step (k := 0) (i := answered) rfl rfl)
  have provider := c9.next (.spawn (k := 1) (.enterStartup starting) rfl)
  have p1 := provider.next (.step (k := 1) (i := answered) rfl rfl)
  have p2 := p1.next (.step (k := 1) (i := answered) rfl rfl)
  have p3 := p2.next (.step (k := 1) (i := answered) rfl rfl)
  have p4 := p3.next (.step (k := 1) (i := answered) rfl rfl)
  have p5 := p4.next (.step (k := 1) (i := answered) rfl rfl)
  have p6 := p5.next (.step (k := 1) (i := answered) rfl rfl)
  exact ⟨_, p6, rfl, ((admission_exclusive p6).2.1 (1, starting) List.mem_cons_self).record
    settling rfl⟩

end DocumentSummarizer.Connect.Locking
