import Mathlib.Order.Interval.Basic

/-! # Gaps between ranges

What half-open ranges, given in the order of their starts, leave of an interval.
The ranges may overlap; the gaps do not.
-/

namespace DocumentSummarizer.Library

/-- The gaps from `cursor` to `length` that the ranges leave. -/
def gaps (length : Nat) : Nat → List (Nat × Nat) → List (Nat × Nat)
  | cursor, [] => if cursor < length then [(cursor, length)] else []
  | cursor, (start, finish) :: rest =>
    (if cursor < start then [(cursor, start)] else []) ++ gaps length (max cursor finish) rest

/-- The offset lies in the range. -/
def Inside (offset : Nat) (range : Nat × Nat) : Prop :=
  range.1 ≤ offset ∧ offset < range.2

section Gaps

variable {length cursor : Nat} {ranges : List (Nat × Nat)} {gap : Nat × Nat}

theorem gaps_lower (mem : gap ∈ gaps length cursor ranges) : cursor ≤ gap.1 := by
  induction ranges generalizing cursor with
  | nil =>
      unfold gaps at mem
      split at mem
      · obtain rfl := List.mem_singleton.mp mem
        exact le_rfl
      · exact absurd mem List.not_mem_nil
  | cons range rest ih =>
      rcases List.mem_append.mp mem with first | later
      · split at first
        · obtain rfl := List.mem_singleton.mp first
          exact le_rfl
        · exact absurd first List.not_mem_nil
      · exact (Nat.le_max_left _ _).trans (ih later)

theorem gaps_bounds (starts : ∀ range ∈ ranges, range.1 ≤ length)
    (mem : gap ∈ gaps length cursor ranges) :
    gap.1 < gap.2 ∧ gap.2 ≤ length := by
  induction ranges generalizing cursor with
  | nil =>
      unfold gaps at mem
      split at mem
      · obtain rfl := List.mem_singleton.mp mem
        exact ⟨by assumption, le_rfl⟩
      · exact absurd mem List.not_mem_nil
  | cons range rest ih =>
      obtain ⟨start, finish⟩ := range
      have inside : start ≤ length := starts _ List.mem_cons_self
      rcases List.mem_append.mp mem with first | later
      · split at first
        · obtain rfl := List.mem_singleton.mp first
          exact ⟨by assumption, inside⟩
        · exact absurd first List.not_mem_nil
      · exact ih (fun range mem => starts range (List.mem_cons_of_mem _ mem)) later

theorem gaps_pairwise (ordered : ∀ range ∈ ranges, range.1 ≤ range.2) :
    (gaps length cursor ranges).Pairwise fun a b => a.2 ≤ b.1 := by
  induction ranges generalizing cursor with
  | nil =>
      unfold gaps
      split
      · exact List.pairwise_singleton _ _
      · exact .nil
  | cons range rest ih =>
      obtain ⟨start, finish⟩ := range
      have grows : start ≤ finish := ordered _ List.mem_cons_self
      apply List.pairwise_append.mpr
      refine ⟨?_, ih fun range mem => ordered range (List.mem_cons_of_mem _ mem), ?_⟩
      · split
        · exact List.pairwise_singleton _ _
        · exact .nil
      · intro a first b later
        split at first
        · obtain rfl := List.mem_singleton.mp first
          have := gaps_lower later
          omega
        · exact absurd first List.not_mem_nil

theorem inside_gaps {offset : Nat} (lower : cursor ≤ offset) (upper : offset < length)
    (ascending : ranges.Pairwise fun a b => a.1 ≤ b.1) :
    (∃ gap ∈ gaps length cursor ranges, Inside offset gap) ↔
      ∀ range ∈ ranges, ¬ Inside offset range := by
  induction ranges generalizing cursor with
  | nil =>
      have visible : cursor < length := by omega
      simp [gaps, visible, Inside, lower, upper]
  | cons range rest ih =>
      obtain ⟨start, finish⟩ := range
      obtain ⟨first_least, rest_ascending⟩ := List.pairwise_cons.mp ascending
      by_cases before : offset < start
      · -- the gap in front of the first range holds the offset
        have outside : ∀ range ∈ (start, finish) :: rest, ¬ Inside offset range := by
          intro range mem inside
          rcases List.mem_cons.mp mem with rfl | later
          · exact absurd inside.1 (by simp; omega)
          · have := first_least range later
            have := inside.1
            simp only at *
            omega
        refine ⟨fun _ => outside, fun _ => ⟨(cursor, start), ?_, lower, before⟩⟩
        apply List.mem_append_left
        rw [if_pos (by omega)]
        exact List.mem_singleton.mpr rfl
      · have not_front : ∀ gap ∈ (if cursor < start then [(cursor, start)] else []),
            ¬ Inside offset gap := by
          intro gap mem inside
          split at mem
          · obtain rfl := List.mem_singleton.mp mem
            exact before inside.2
          · exact absurd mem List.not_mem_nil
        by_cases within : offset < finish
        · constructor
          · rintro ⟨gap, mem, inside⟩
            rcases List.mem_append.mp mem with front | later
            · exact absurd inside (not_front gap front)
            · exfalso
              -- every later gap starts at or after the end of this range
              have := (Nat.le_max_right cursor finish).trans (gaps_lower later)
              have := inside.1
              omega
          · intro outside
            exact absurd ⟨by simp; omega, within⟩ (outside _ List.mem_cons_self)
        · have here := @ih (max cursor finish) (by omega) rest_ascending
          constructor
          · rintro ⟨gap, mem, inside⟩ range range_mem
            rcases List.mem_append.mp mem with front | later
            · exact absurd inside (not_front gap front)
            · rcases List.mem_cons.mp range_mem with rfl | other
              · exact fun held => within held.2
              · exact here.mp ⟨gap, later, inside⟩ range other
          · intro outside
            obtain ⟨gap, mem, inside⟩ :=
              here.mpr fun range mem => outside range (List.mem_cons_of_mem _ mem)
            exact ⟨gap, List.mem_append_right _ mem, inside⟩

/-- A gap starts at the cursor or where a range ends, and ends at the end or where one starts. -/
theorem gaps_ends (mem : gap ∈ gaps length cursor ranges) :
    (gap.1 = cursor ∨ ∃ range ∈ ranges, gap.1 = range.2) ∧
      (gap.2 = length ∨ ∃ range ∈ ranges, gap.2 = range.1) := by
  induction ranges generalizing cursor with
  | nil =>
      unfold gaps at mem
      split at mem
      · obtain rfl := List.mem_singleton.mp mem
        exact ⟨.inl rfl, .inl rfl⟩
      · exact absurd mem List.not_mem_nil
  | cons range rest ih =>
      obtain ⟨start, finish⟩ := range
      rcases List.mem_append.mp mem with first | later
      · split at first
        · obtain rfl := List.mem_singleton.mp first
          exact ⟨.inl rfl, .inr ⟨_, List.mem_cons_self, rfl⟩⟩
        · exact absurd first List.not_mem_nil
      · obtain ⟨left, right⟩ := ih later
        constructor
        · rcases left with same | ⟨range, mem, same⟩
          · rcases Nat.le_total cursor finish with le | le
            · rw [Nat.max_eq_right le] at same
              exact .inr ⟨_, List.mem_cons_self, same⟩
            · rw [Nat.max_eq_left le] at same
              exact .inl same
          · exact .inr ⟨range, List.mem_cons_of_mem _ mem, same⟩
        · rcases right with same | ⟨range, mem, same⟩
          · exact .inl same
          · exact .inr ⟨range, List.mem_cons_of_mem _ mem, same⟩

end Gaps

/-! ## Segments within ranges -/

section Within

variable {α : Type*} {start finish : α → Nat} {items : List α} {ranges : List (Nat × Nat)}

theorem filter_or_append {p q : α → Bool}
    (ordered : items.Pairwise fun a b => q a = true → p b = false)
    (apart : ∀ a ∈ items, p a = true → q a = false) :
    items.filter (fun a => p a || q a) = items.filter p ++ items.filter q := by
  induction items with
  | nil => rfl
  | cons a rest ih =>
      obtain ⟨first, later⟩ := List.pairwise_cons.mp ordered
      have tail := ih later fun b mem => apart b (List.mem_cons_of_mem _ mem)
      cases holds : p a with
      | true =>
          simp [holds, apart a List.mem_cons_self holds, tail]
      | false =>
          cases other : q a with
          | false => simp [holds, other, tail]
          | true =>
              -- nothing behind an item of the second kind is of the first
              have none : rest.filter p = [] := by
                rw [List.filter_eq_nil_iff]
                intro b mem
                simp [first b mem other]
              simp [holds, other, tail, none]

theorem filter_ranges (ordered : items.Pairwise fun a b => finish a ≤ start b)
    (nonempty : ∀ a ∈ items, start a < finish a)
    (ascending : ranges.Pairwise fun a b => a.2 ≤ b.1) :
    items.filter (fun a => ranges.any fun range =>
        decide (range.1 ≤ start a ∧ finish a ≤ range.2)) =
      ranges.flatMap fun range => items.filter fun a =>
        decide (range.1 ≤ start a ∧ finish a ≤ range.2) := by
  induction ranges with
  | nil => simp
  | cons range rest ih =>
      obtain ⟨first, later⟩ := List.pairwise_cons.mp ascending
      simp only [List.any_cons, List.flatMap_cons]
      rw [filter_or_append, ih later]
      · apply List.Pairwise.imp_of_mem _ ordered
        intro a b a_mem b_mem le within
        obtain ⟨other, other_mem, held⟩ := List.any_eq_true.mp within
        have := first other other_mem
        have := nonempty a a_mem
        have := nonempty b b_mem
        have := of_decide_eq_true held
        rw [decide_eq_false_iff_not]
        omega
      · intro a mem within
        rw [Bool.eq_false_iff]
        intro again
        obtain ⟨other, other_mem, held⟩ := List.any_eq_true.mp again
        have := first other other_mem
        have := nonempty a mem
        have := of_decide_eq_true held
        have := of_decide_eq_true within
        omega

end Within

end DocumentSummarizer.Library
