import Mathlib.Algebra.Order.Group.Nat
import Mathlib.Data.Finset.Card

/-! # Even spacing

`count` positions spread over `total` places: the first is the first place, the
last is the last, and no two of them meet.
-/

namespace DocumentSummarizer.Library

/-- The place of the `index`-th of `count` positions over `total` places. -/
def spaced (count total index : Nat) : Nat :=
  index * (total - 1) / (count - 1)

section Spacing

variable {count total : Nat}

theorem spaced_zero : spaced count total 0 = 0 := by
  simp [spaced]

theorem spaced_last (many : 2 ≤ count) : spaced count total (count - 1) = total - 1 := by
  have positive : 0 < count - 1 := by omega
  rw [spaced, Nat.mul_div_cancel_left _ positive]

theorem spaced_lt (many : 2 ≤ count) (fits : count ≤ total) {i j : Nat} (less : i < j) :
    spaced count total i < spaced count total j := by
  have positive : 0 < count - 1 := by omega
  have wide : count - 1 ≤ total - 1 := by omega
  have step : i * (total - 1) + (count - 1) ≤ j * (total - 1) := by
    calc i * (total - 1) + (count - 1) ≤ i * (total - 1) + (total - 1) := by omega
      _ = (i + 1) * (total - 1) := by rw [Nat.succ_mul]
      _ ≤ j * (total - 1) := Nat.mul_le_mul_right _ less
  calc spaced count total i < spaced count total i + 1 := Nat.lt_succ_self _
    _ = (i * (total - 1) + (count - 1)) / (count - 1) := by
        rw [spaced, Nat.add_div_right _ positive]
    _ ≤ spaced count total j := Nat.div_le_div_right step

theorem spaced_injective (many : 2 ≤ count) (fits : count ≤ total) {i j : Nat}
    (same : spaced count total i = spaced count total j) : i = j := by
  rcases Nat.lt_trichotomy i j with less | equal | more
  · exact absurd same (spaced_lt many fits less).ne
  · exact equal
  · exact absurd same.symm (spaced_lt many fits more).ne

theorem spaced_inside (many : 2 ≤ count) (fits : count ≤ total) {index : Nat}
    (inside : index < count) : spaced count total index < total := by
  have last : index ≤ count - 1 := by omega
  rcases Nat.lt_or_eq_of_le last with less | rfl
  · have below := spaced_lt many fits less
    rw [spaced_last many] at below
    omega
  · rw [spaced_last many]
    omega

end Spacing

theorem card_of_picks {α : Type*} [DecidableEq α] {items : List α} (distinct : items.Nodup)
    {count : Nat} {position : Nat → Nat} {picked : List α}
    (picks : List.Forall₂ (fun i a => items[position i]? = some a) (List.range count) picked)
    (apart : ∀ i < count, ∀ j < count, position i = position j → i = j) : picked.Nodup := by
  rw [List.nodup_iff_injective_get]
  intro ⟨i, hi⟩ ⟨j, hj⟩ same
  have long : count = picked.length := by simpa using picks.length_eq
  have first := List.Forall₂.get picks (by simpa [long] using hi) hi
  have second := List.Forall₂.get picks (by simpa [long] using hj) hj
  simp only [List.get_eq_getElem, List.getElem_range] at first second same
  rw [← same] at second
  obtain ⟨_, found⟩ := List.getElem?_eq_some_iff.mp first
  obtain ⟨_, again⟩ := List.getElem?_eq_some_iff.mp second
  have together := (distinct.getElem_inj_iff).mp (found.trans again.symm)
  have equal := apart i (by omega) j (by omega) together
  simp only [equal]

end DocumentSummarizer.Library
