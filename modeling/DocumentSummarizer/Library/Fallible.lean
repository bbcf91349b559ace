import Mathlib

/-! # Fallible steps and transactions

The vocabulary of code that stops at its first error: a missing value, a guard,
and a body that runs on a working copy of a state and is committed only when it
succeeds.
-/

namespace DocumentSummarizer.Library

universe u v w x

variable {ε : Type u} {α : Type v} {β : Type v} {σ : Type w}

def okOrElse (value : Option α) (error : ε) : Except ε α :=
  match value with
  | some a => .ok a
  | none => .error error

def refuseIf (refused : Prop) [Decidable refused] (error : ε) : Except ε PUnit.{v + 1} :=
  if refused then .error error else .ok ⟨⟩

/-- Peels the first computation off a sequence that succeeded. -/
theorem peel_ok {first : Except ε α} {rest : α → Except ε β} {b : β} :
    (first >>= rest) = .ok b ↔ ∃ a, first = .ok a ∧ rest a = .ok b := by
  rcases first with e | a
  · constructor
    · intro h
      cases h
    · rintro ⟨a, h, -⟩
      cases h
  · constructor
    · exact fun h => ⟨a, rfl, h⟩
    · rintro ⟨_, h, hb⟩
      cases h
      exact hb

theorem return_ok {a b : α} : (pure a : Except ε α) = .ok b ↔ a = b :=
  Except.ok.injEq a b ▸ Iff.rfl

theorem ok_bind {first : Except ε α} {a : α} (h : first = .ok a) (rest : α → Except ε β) :
    (first >>= rest) = rest a := by
  rw [h]
  rfl

@[simp] theorem okOrElse_eq_ok {value : Option α} {error : ε} {a : α} :
    okOrElse value error = .ok a ↔ value = some a := by
  cases value <;> simp [okOrElse]

@[simp] theorem refuseIf_eq_ok {refused : Prop} [Decidable refused] {error : ε} {u : PUnit} :
    refuseIf refused error = .ok u ↔ ¬ refused := by
  by_cases h : refused <;> simp [refuseIf, h]

theorem okOrElse_some {error : ε} (a : α) : okOrElse (some a) error = .ok a :=
  rfl

theorem refuseIf_of_not {refused : Prop} [Decidable refused] {error : ε} (h : ¬ refused) :
    refuseIf refused error = .ok ⟨⟩ := by
  simp [h]

theorem exists_ok {m : Except ε α} (h : m.isOk = true) : ∃ a, m = .ok a := by
  cases m with
  | error e => cases h
  | ok a => exact ⟨a, rfl⟩

theorem mapError_ok_iff {ε' : Type u} {m : Except ε α} {f : ε → ε'} {a : α} :
    m.mapError f = .ok a ↔ m = .ok a := by
  rcases m with e | b
  · simp only [Except.mapError, reduceCtorEq]
  · simp only [Except.mapError, Except.ok.injEq]

theorem exists_forall₂_iff {R : α → β → Prop} {as : List α} :
    (∃ bs, List.Forall₂ R as bs) ↔ ∀ a ∈ as, ∃ b, R a b := by
  induction as with
  | nil => simp
  | cons a rest ih =>
      rw [List.forall_mem_cons, ← ih]
      constructor
      · rintro ⟨_, h⟩
        obtain ⟨b, bs, first, later, -⟩ := List.forall₂_cons_left_iff.mp h
        exact ⟨⟨b, first⟩, bs, later⟩
      · rintro ⟨⟨b, first⟩, bs, later⟩
        exact ⟨b :: bs, .cons first later⟩

theorem mapM_ok_iff {f : α → Except ε β} {as : List α} {bs : List β} :
    as.mapM f = .ok bs ↔ List.Forall₂ (fun a b => f a = .ok b) as bs := by
  induction as generalizing bs with
  | nil =>
      rw [List.mapM_nil, return_ok, List.forall₂_nil_left_iff]
      exact eq_comm
  | cons a rest ih =>
      simp only [List.mapM_cons, peel_ok, return_ok, ih, List.forall₂_cons_left_iff]
      constructor
      · rintro ⟨b, first, later, rest, rfl⟩
        exact ⟨b, later, first, rest, rfl⟩
      · rintro ⟨b, later, first, rest, rfl⟩
        exact ⟨b, first, later, rest, rfl⟩

/-- Commits what `body` did when it succeeds and drops the working copy when it fails. -/
def transaction (body : σ → Except ε (α × σ)) (s : σ) : Except ε α × σ :=
  match body s with
  | .ok (a, t) => (.ok a, t)
  | .error e => (.error e, s)

variable {body : σ → Except ε (α × σ)}

theorem transaction_eq_ok {s : σ} {a : α}
    (h : (transaction body s).1 = .ok a) : body s = .ok (a, (transaction body s).2) := by
  unfold transaction at h ⊢
  split at h
  · next b t hb => simp_all
  · simp at h

theorem transaction_rolls_back {s : σ} {e : ε}
    (h : (transaction body s).1 = .error e) : (transaction body s).2 = s := by
  unfold transaction at h ⊢
  split at h
  · simp at h
  · next hb => simp only

theorem transaction_of_ok {s t : σ} {a : α}
    (h : body s = .ok (a, t)) : transaction body s = (.ok a, t) := by
  simp only [transaction, h]

end DocumentSummarizer.Library
