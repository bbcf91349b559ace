import DocumentSummarizer.Library.Fallible

/-! # Steps that keep their state when they fail

What a computation has done stands, whether it then returns or fails; so an invariant
of its state is one of both ends.
-/

namespace DocumentSummarizer.Library

universe u

variable {ε σ α β : Type u}

/-- The state in which a computation ends. -/
def endState (m : EStateM ε σ α) (s : σ) : σ :=
  match m s with
  | .ok _ s' => s'
  | .error _ s' => s'

/-- A computation without effects. -/
def pureStep (m : Except ε α) : EStateM ε σ α :=
  match m with
  | .ok a => pure a
  | .error e => throw e

theorem bind_ok_iff {first : EStateM ε σ α} {rest : α → EStateM ε σ β} {s s' : σ} {b : β} :
    (first >>= rest) s = .ok b s' ↔ ∃ a s₁, first s = .ok a s₁ ∧ rest a s₁ = .ok b s' := by
  show EStateM.bind first rest s = .ok b s' ↔ _
  unfold EStateM.bind
  cases first s with
  | ok a s₁ => simp
  | error e s₁ => simp

theorem bind_error_iff {first : EStateM ε σ α} {rest : α → EStateM ε σ β} {s s' : σ} {e : ε} :
    (first >>= rest) s = .error e s' ↔
      first s = .error e s' ∨ ∃ a s₁, first s = .ok a s₁ ∧ rest a s₁ = .error e s' := by
  show EStateM.bind first rest s = .error e s' ↔ _
  unfold EStateM.bind
  cases first s with
  | ok a s₁ => simp
  | error e s₁ => simp

theorem pure_ok_iff {a b : α} {s s' : σ} :
    (pure a : EStateM ε σ α) s = .ok b s' ↔ a = b ∧ s = s' := by
  show EStateM.Result.ok a s = .ok b s' ↔ _
  simp

@[simp] theorem pureStep_ok_iff {m : Except ε α} {a : α} {s s' : σ} :
    pureStep m s = .ok a s' ↔ m = .ok a ∧ s = s' := by
  cases m with
  | ok b => exact pure_ok_iff.trans (by simp)
  | error e =>
      show EStateM.Result.error e s = .ok a s' ↔ _
      simp

theorem adaptExcept_ok_iff {ε' : Type u} {f : ε → ε'} {m : EStateM ε σ α} {s s' : σ} {a : α} :
    m.adaptExcept f s = .ok a s' ↔ m s = .ok a s' := by
  unfold EStateM.adaptExcept
  cases m s with
  | ok b s₁ => simp
  | error e s₁ => simp

/-! ## Invariants -/

/-- An invariant holds where the computation ends, however it ends. -/
def Keeps (I : σ → Prop) (m : EStateM ε σ α) : Prop :=
  ∀ s, I s → I (endState m s)

section Invariants

variable {I : σ → Prop}

theorem keeps_pure (a : α) : Keeps I (pure a : EStateM ε σ α) := fun _ held => held

theorem keeps_throw (e : ε) : Keeps I (throw e : EStateM ε σ α) := fun _ held => held

theorem keeps_pureStep (m : Except ε α) : Keeps I (pureStep m : EStateM ε σ α) := by
  cases m with
  | ok a => exact keeps_pure a
  | error e => exact keeps_throw e

theorem endState_bind {first : EStateM ε σ α} {rest : α → EStateM ε σ β} {s : σ} :
    endState (first >>= rest) s =
      match first s with
      | .ok a s₁ => endState (rest a) s₁
      | .error _ s₁ => s₁ := by
  show endState (EStateM.bind first rest) s = _
  unfold endState EStateM.bind
  cases first s with
  | ok a s₁ => rfl
  | error e s₁ => rfl

theorem keeps_bind {first : EStateM ε σ α} {rest : α → EStateM ε σ β} (start : Keeps I first)
    (further : ∀ a, Keeps I (rest a)) : Keeps I (first >>= rest) := by
  intro s held
  have here := start s held
  rw [endState_bind]
  unfold endState at here
  cases run : first s with
  | ok a s₁ =>
      rw [run] at here
      exact further a s₁ here
  | error e s₁ =>
      rw [run] at here
      exact here

end Invariants

end DocumentSummarizer.Library
