import Mathlib

/-! # Splitting at a separator

The first separator of a list, and the last occurrence of a pattern.
-/

namespace DocumentSummarizer.Library

universe u

variable {α : Type u} [DecidableEq α]

/-- `split_once`: before and after the first separator. -/
def splitOnce (separator : α) : List α → Option (List α × List α)
  | [] => none
  | a :: rest =>
    if a = separator then some ([], rest)
    else (splitOnce separator rest).map fun parts => (a :: parts.1, parts.2)

/-- `rsplit_once`: before and after the last occurrence of a pattern. -/
def rsplitOnce (pattern : List α) : List α → Option (List α × List α)
  | [] => none
  | a :: rest =>
    match rsplitOnce pattern rest with
    | some parts => some (a :: parts.1, parts.2)
    | none =>
      if pattern.isPrefixOf (a :: rest) then some ([], (a :: rest).drop pattern.length) else none

section Splitting

variable {separator : α} {front back stem : List α}

theorem splitOnce_append (absent : separator ∉ front) :
    splitOnce separator (front ++ separator :: back) = some (front, back) := by
  induction front with
  | nil => simp [splitOnce]
  | cons a rest ih =>
      have different : a ≠ separator := by
        rintro rfl
        exact absent List.mem_cons_self
      have later := ih fun mem => absent (List.mem_cons_of_mem _ mem)
      simp [splitOnce, different, later]

theorem not_isPrefixOf_of_absent {text : List α} (absent : separator ∉ text.drop stem.length) :
    (stem ++ [separator]).isPrefixOf text = false := by
  rw [Bool.eq_false_iff]
  intro starts
  obtain ⟨rest, rfl⟩ := List.isPrefixOf_iff_prefix.mp starts
  apply absent
  simp

theorem rsplitOnce_eq_none {text : List α} (near : separator ∉ text.drop stem.length) :
    rsplitOnce (stem ++ [separator]) text = none := by
  induction text with
  | nil => rfl
  | cons a rest ih =>
      have later : separator ∉ rest.drop stem.length := by
        intro mem
        apply near
        cases long : stem.length with
        | zero =>
            rw [long, List.drop_zero] at mem
            exact List.mem_cons_of_mem _ mem
        | succ n =>
            rw [long] at mem
            rw [List.drop_succ_cons]
            exact List.drop_subset_drop_left rest (Nat.le_succ n) mem
      rw [rsplitOnce, ih later]
      simp only [not_isPrefixOf_of_absent near, Bool.false_eq_true, if_false]

theorem rsplitOnce_append (nonempty : stem ≠ []) (absent : separator ∉ back) :
    rsplitOnce (stem ++ [separator]) (front ++ (stem ++ separator :: back)) =
      some (front, back) := by
  induction front with
  | nil =>
      cases stem with
      | nil => exact absurd rfl nonempty
      | cons a rest =>
          have later : separator ∉ (rest ++ separator :: back).drop (a :: rest).length := by
            rw [List.length_cons, List.drop_append, List.drop_eq_nil_of_le (by omega)]
            simpa using absent
          have starts : (a :: rest ++ [separator]).isPrefixOf (a :: (rest ++ separator :: back)) =
              true := by
            rw [List.isPrefixOf_iff_prefix]
            exact ⟨back, by simp⟩
          show rsplitOnce (a :: rest ++ [separator]) (a :: (rest ++ separator :: back)) = _
          rw [rsplitOnce, rsplitOnce_eq_none later]
          simp only [starts, if_true, Option.some.injEq, Prod.mk.injEq, true_and]
          simp
  | cons a rest ih =>
      rw [List.cons_append, rsplitOnce, ih]

end Splitting

end DocumentSummarizer.Library
