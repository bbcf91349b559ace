import Mathlib.Data.List.Pairwise
import Mathlib.Data.List.Forall2

/-! # Tilings

Ranges that follow one another from a start to a finish, each of them a tile and
nothing but a gap before, between and after them.  What a tile and what a gap is
stays open.
-/

namespace DocumentSummarizer.Library

variable {gap tile : Nat → Nat → Prop}

inductive Tiled (gap tile : Nat → Nat → Prop) : Nat → List (Nat × Nat) → Nat → Prop
  | done {start finish : Nat} (rest : gap start finish) : Tiled gap tile start [] finish
  | tile {start finish : Nat} {range : Nat × Nat} {later : List (Nat × Nat)}
      (before : gap start range.1) (inside : tile range.1 range.2)
      (rest : Tiled gap tile range.2 later finish) : Tiled gap tile start (range :: later) finish

namespace Tiled

variable {start middle finish : Nat} {ranges later : List (Nat × Nat)}

theorem mem {range : Nat × Nat} (h : Tiled gap tile start ranges finish) (mem : range ∈ ranges) :
    tile range.1 range.2 := by
  induction h with
  | done => exact absurd mem List.not_mem_nil
  | tile _ inside _ ih =>
      rcases List.mem_cons.mp mem with rfl | further
      · exact inside
      · exact ih further

theorem shift {gap' tile' : Nat → Nat → Prop} (n : Nat)
    (gaps : ∀ {a b}, gap a b → gap' (n + a) (n + b))
    (tiles : ∀ {a b}, tile a b → tile' (n + a) (n + b))
    (h : Tiled gap tile start ranges finish) :
    Tiled gap' tile' (n + start) (ranges.map fun range => (n + range.1, n + range.2))
      (n + finish) := by
  induction h with
  | done rest => exact .done (gaps rest)
  | tile before inside _ ih => exact .tile (gaps before) (tiles inside) ih

theorem length_le (ordered_gap : ∀ {a b}, gap a b → a ≤ b) (solid : ∀ {a b}, tile a b → a < b)
    (h : Tiled gap tile start ranges finish) : start + ranges.length ≤ finish := by
  induction h with
  | done rest => exact ordered_gap rest
  | tile before inside _ ih =>
      have := ordered_gap before
      have := solid inside
      rw [List.length_cons]
      omega

/-! ## Order -/

section Order

variable (ordered_gap : ∀ {a b}, gap a b → a ≤ b) (ordered_tile : ∀ {a b}, tile a b → a ≤ b)

include ordered_gap ordered_tile

theorem le (h : Tiled gap tile start ranges finish) : start ≤ finish := by
  induction h with
  | done rest => exact ordered_gap rest
  | tile before inside _ ih => exact Nat.le_trans (ordered_gap before) (Nat.le_trans (ordered_tile inside) ih)

theorem lower {range : Nat × Nat} (h : Tiled gap tile start ranges finish)
    (mem : range ∈ ranges) : start ≤ range.1 := by
  induction h with
  | done => exact absurd mem List.not_mem_nil
  | tile before inside _ ih =>
      rcases List.mem_cons.mp mem with rfl | further
      · exact ordered_gap before
      · exact Nat.le_trans (ordered_gap before)
          (Nat.le_trans (ordered_tile inside) (ih further))

theorem upper {range : Nat × Nat} (h : Tiled gap tile start ranges finish)
    (mem : range ∈ ranges) : range.2 ≤ finish := by
  induction h with
  | done => exact absurd mem List.not_mem_nil
  | tile _ _ rest ih =>
      rcases List.mem_cons.mp mem with rfl | further
      · exact rest.le ordered_gap ordered_tile
      · exact ih further

theorem pairwise (h : Tiled gap tile start ranges finish) :
    ranges.Pairwise fun a b => a.2 ≤ b.1 := by
  induction h with
  | done => exact .nil
  | tile _ _ rest ih =>
      exact .cons (fun range mem => rest.lower ordered_gap ordered_tile mem) ih

end Order

/-- Every offset lies in a range or in a gap. -/
theorem covers {offset : Nat} (h : Tiled gap tile start ranges finish) (lower : start ≤ offset)
    (upper : offset < finish) :
    (∃ range ∈ ranges, range.1 ≤ offset ∧ offset < range.2) ∨
      ∃ a b, gap a b ∧ a ≤ offset ∧ offset < b := by
  induction h with
  | done rest => exact .inr ⟨_, _, rest, lower, upper⟩
  | @tile start finish range later before _ _ ih =>
      by_cases early : offset < range.1
      · exact .inr ⟨_, _, before, lower, early⟩
      by_cases here : offset < range.2
      · exact .inl ⟨range, List.mem_cons_self, Nat.le_of_not_lt early, here⟩
      rcases ih (Nat.le_of_not_lt here) upper with ⟨found, mem, inside⟩ | between
      · exact .inl ⟨found, List.mem_cons_of_mem _ mem, inside⟩
      · exact .inr between

/-! ## Composition -/

theorem merge_first {first second : Nat × Nat}
    (merged : ∀ {a b c d}, tile a b → gap b c → tile c d → tile a d)
    (h : Tiled gap tile start (first :: second :: later) finish) :
    Tiled gap tile start ((first.1, second.2) :: later) finish := by
  cases h with
  | tile before held rest =>
      cases rest with
      | tile between inside rest => exact .tile before (merged held between inside) rest

section Composition

variable (joined : ∀ {a b c}, gap a b → gap b c → gap a c)

include joined

theorem after_gap (before : gap start middle) (h : Tiled gap tile middle ranges finish) :
    Tiled gap tile start ranges finish := by
  cases h with
  | done rest => exact .done (joined before rest)
  | tile next inside rest => exact .tile (joined before next) inside rest

theorem append (first : Tiled gap tile start ranges middle)
    (second : Tiled gap tile middle later finish) :
    Tiled gap tile start (ranges ++ later) finish := by
  induction first with
  | done rest => exact after_gap joined rest second
  | tile before inside _ ih => exact .tile before inside (ih second)

theorem concat {range : Nat × Nat} (h : Tiled gap tile start ranges middle)
    (before : gap middle range.1) (inside : tile range.1 range.2) (after : gap range.2 finish) :
    Tiled gap tile start (ranges ++ [range]) finish :=
  append joined h (.tile before inside (.done after))

theorem flatten {parts : List (List (Nat × Nat))} (h : Tiled gap tile start ranges finish)
    (each : List.Forall₂ (fun range part => Tiled gap tile range.1 part range.2) ranges parts) :
    Tiled gap tile start parts.flatten finish := by
  induction h generalizing parts with
  | done rest =>
      cases each
      exact .done rest
  | tile before _ _ ih =>
      cases each with
      | cons first others =>
          exact append joined (after_gap joined before first) (ih others)

variable (merged : ∀ {a b c d}, tile a b → gap b c → tile c d → tile a d)

include merged

theorem merge_last {front : List (Nat × Nat)} {last range : Nat × Nat}
    (h : Tiled gap tile start (front ++ [last]) middle) (before : gap middle range.1)
    (inside : tile range.1 range.2) (after : gap range.2 finish) :
    Tiled gap tile start (front ++ [(last.1, range.2)]) finish := by
  induction front generalizing start with
  | nil =>
      cases h with
      | tile first held rest =>
          cases rest with
          | done between =>
              exact .tile first (merged held (joined between before) inside) (.done after)
  | cons head front ih =>
      cases h with
      | tile first held rest => exact .tile first held (ih rest)

end Composition

end Tiled

end DocumentSummarizer.Library
