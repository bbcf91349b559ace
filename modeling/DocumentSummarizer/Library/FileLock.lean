import Mathlib

/-! # File locks

A lock that one holder takes for itself or several share.  The two never hold at
once, and that is part of the type.
-/

namespace DocumentSummarizer.Library

universe u

structure FileLock (κ : Type u) where
  exclusive : Option κ
  shared : List κ
  apart : exclusive.isSome = true → shared = []
  deriving DecidableEq

namespace FileLock

variable {κ : Type u} {lock : FileLock κ} {j k : κ}

def unlocked : FileLock κ :=
  ⟨none, [], fun _ => rfl⟩

/-- Nobody holds the lock. -/
def isFree (lock : FileLock κ) : Bool :=
  lock.exclusive.isNone && lock.shared.isEmpty

def takeExclusive (_lock : FileLock κ) (k : κ) : FileLock κ :=
  ⟨some k, [], fun _ => rfl⟩

def takeShared (lock : FileLock κ) (k : κ) : FileLock κ :=
  ⟨none, k :: lock.shared, by simp⟩

/-- `try_lock` -/
def tryLock (lock : FileLock κ) (k : κ) : Option (FileLock κ) :=
  if lock.isFree then some (lock.takeExclusive k) else none

/-- `try_lock_shared` -/
def tryLockShared (lock : FileLock κ) (k : κ) : Option (FileLock κ) :=
  if lock.exclusive.isNone then some (lock.takeShared k) else none

theorem shared_nil (held : lock.exclusive = some k) : lock.shared = [] :=
  lock.apart (by simp [held])

theorem tryLock_some {next : FileLock κ} (h : lock.tryLock k = some next) :
    lock.exclusive = none ∧ lock.shared = [] ∧ next.exclusive = some k ∧ next.shared = [] := by
  unfold tryLock at h
  split at h
  · rename_i free
    simp only [isFree, Bool.and_eq_true, Option.isNone_iff_eq_none, List.isEmpty_iff] at free
    cases h
    exact ⟨free.1, free.2, rfl, rfl⟩
  · cases h

theorem tryLockShared_some {next : FileLock κ} (h : lock.tryLockShared k = some next) :
    lock.exclusive = none ∧ next.exclusive = none ∧ next.shared = k :: lock.shared := by
  unfold tryLockShared at h
  split at h
  · rename_i available
    cases h
    exact ⟨Option.isNone_iff_eq_none.mp available, rfl, rfl⟩
  · cases h

variable [DecidableEq κ]

/-- What `k` holds is given back. -/
def unlock (lock : FileLock κ) (k : κ) : FileLock κ where
  exclusive := if lock.exclusive = some k then none else lock.exclusive
  shared := lock.shared.filter (· ≠ k)
  apart := by
    intro held
    have nobody : lock.shared = [] := by
      apply lock.apart
      split at held
      · cases held
      · exact held
    simp [nobody]

theorem unlock_exclusive_self : (lock.unlock k).exclusive ≠ some k := by
  simp only [unlock]
  split
  · simp
  · assumption

theorem unlock_exclusive_other (other : j ≠ k) :
    (lock.unlock k).exclusive = some j ↔ lock.exclusive = some j := by
  simp only [unlock]
  split
  · rename_i held
    simp only [reduceCtorEq, held, Option.some.injEq, false_iff]
    exact fun same => other same.symm
  · exact Iff.rfl

theorem unlock_shared_self : k ∉ (lock.unlock k).shared := by
  simp [unlock]

theorem unlock_shared_other (other : j ≠ k) : j ∈ (lock.unlock k).shared ↔ j ∈ lock.shared := by
  simp [unlock, other]

/-! ### The mode of one holder -/

inductive Mode where
  | free
  | shared
  | exclusive
  deriving DecidableEq, Repr

/-- How `k` holds the lock. -/
def mode (lock : FileLock κ) (k : κ) : Mode :=
  if lock.exclusive = some k then .exclusive else if k ∈ lock.shared then .shared else .free

theorem mode_exclusive_iff : lock.mode k = .exclusive ↔ lock.exclusive = some k := by
  unfold mode
  split
  · simp [*]
  · split <;> simp [*]

theorem mode_free_of_exclusive (held : lock.mode k = .exclusive) (other : j ≠ k) :
    lock.mode j = .free := by
  rw [mode_exclusive_iff] at held
  simp [mode, held, shared_nil held, Ne.symm other]

theorem tryLock_mode {next : FileLock κ} (h : lock.tryLock k = some next) (j : κ) :
    next.mode j = (if j = k then .exclusive else .free) ∧ lock.mode j = .free := by
  obtain ⟨nobody, none_shares, taken, alone⟩ := tryLock_some h
  simp only [mode, nobody, none_shares, taken, alone, Option.some.injEq, List.not_mem_nil,
    if_false, reduceCtorEq, and_true]
  by_cases same : j = k
  · simp [same]
  · simp [same, Ne.symm same]

theorem tryLock_none (h : lock.tryLock k = none) : ∃ j, lock.mode j ≠ .free := by
  unfold tryLock at h
  split at h
  · cases h
  · rename_i taken
    cases held : lock.exclusive with
    | some j => exact ⟨j, by simp [mode, held]⟩
    | none =>
        cases shares : lock.shared with
        | nil => simp [isFree, held, shares] at taken
        | cons j rest => exact ⟨j, by simp [mode, held, shares]⟩

theorem tryLockShared_mode {next : FileLock κ} (h : lock.tryLockShared k = some next) (j : κ) :
    next.mode j = (if j = k then .shared else lock.mode j) := by
  obtain ⟨nobody, still_nobody, joined⟩ := tryLockShared_some h
  simp only [mode, nobody, still_nobody, joined, List.mem_cons, reduceCtorEq, if_false]
  by_cases same : j = k <;> simp [same]

theorem tryLockShared_none (h : lock.tryLockShared k = none) :
    ∃ j, lock.exclusive = some j ∧ lock.mode j = .exclusive := by
  unfold tryLockShared at h
  split at h
  · cases h
  · rename_i taken
    obtain ⟨j, held⟩ := Option.ne_none_iff_exists'.mp (by simpa using taken)
    exact ⟨j, held, mode_exclusive_iff.mpr held⟩

theorem unlock_mode (j : κ) :
    (lock.unlock k).mode j = (if j = k then .free else lock.mode j) := by
  by_cases same : j = k
  · subst same
    simp [mode, unlock_exclusive_self, unlock_shared_self]
  · simp only [mode, unlock_exclusive_other same, unlock_shared_other same, same, if_false]

end FileLock

end DocumentSummarizer.Library
