import Mathlib.Data.List.Nodup

/-! # Rows with a key

A table is a list of rows, and a column of it is a key when no two rows agree on it.
-/

namespace DocumentSummarizer.Library

variable {α κ : Type*} {key : α → κ} {rows : List α} {row : α}

theorem nodup_snoc (nodup : (rows.map key).Nodup) (absent : ∀ other ∈ rows, key other ≠ key row) :
    ((rows ++ [row]).map key).Nodup := by
  rw [List.map_append, List.nodup_append]
  refine ⟨nodup, List.nodup_singleton _, ?_⟩
  intro found before last inside same
  obtain ⟨other, mem, rfl⟩ := List.mem_map.mp before
  rw [List.map_singleton, List.mem_singleton] at inside
  exact absent other mem (same.trans inside)

theorem find_eq_some_iff [DecidableEq κ] (nodup : (rows.map key).Nodup) {wanted : κ} :
    rows.find? (fun other => decide (key other = wanted)) = some row ↔
      row ∈ rows ∧ key row = wanted := by
  constructor
  · intro found
    exact ⟨List.mem_of_find?_eq_some found, by simpa using List.find?_some found⟩
  · rintro ⟨mem, same⟩
    cases found : rows.find? (fun other => decide (key other = wanted)) with
    | none =>
        have none := List.find?_eq_none.mp found row mem
        simp [same] at none
    | some other =>
        have otherKey : key other = wanted := by simpa using List.find?_some found
        rw [List.inj_on_of_nodup_map nodup (List.mem_of_find?_eq_some found) mem
          (otherKey.trans same.symm)]

end DocumentSummarizer.Library
