import DocumentSummarizer.Library.Fallible

/-! # Searches for the greatest number that is admitted

Bisection of a range of numbers of bounded size, where a smaller number is admitted
whenever a greater one is.
-/

namespace DocumentSummarizer.Library

universe u

variable {ε : Type u}

/-- The loop between two bounds, with the greatest number found admitted; `trap` is where a
bound would leave the numbers up to `limit`. -/
def greatestAdmitted (admits : Nat → Except ε Bool) (limit : Nat) (trap : ε) (low high : Nat)
    (admitted : Option Nat) : Except ε (Option Nat) :=
  if low ≤ high then
    let middle := low + (high - low) / 2
    match admits middle with
    | .error e => .error e
    | .ok true =>
        if middle + 1 ≤ limit then
          greatestAdmitted admits limit trap (middle + 1) high (some middle)
        else .error trap
    | .ok false =>
        if 0 < middle then greatestAdmitted admits limit trap low (middle - 1) admitted
        else .error trap
  else .ok admitted
termination_by high + 1 - low

/-- The greatest number of a range with a property, if there is one. -/
def IsGreatest (p : Nat → Prop) (low high : Nat) : Option Nat → Prop
  | none => ∀ n, low ≤ n → n ≤ high → ¬ p n
  | some m => low ≤ m ∧ m ≤ high ∧ p m ∧ ∀ n, m < n → n ≤ high → ¬ p n

section Bisection

variable {admits : Nat → Except ε Bool} {p : Nat → Prop} {limit : Nat} {trap : ε} {low high : Nat}

/-- The numbers that the loop has left behind are settled: those above the upper bound are not
admitted, and the one below the lower bound is. -/
structure Settled (p : Nat → Prop) (first last low high : Nat) (admitted : Option Nat) : Prop where
  above : ∀ n, high < n → n ≤ last → ¬ p n
  bounded : high ≤ last
  started : first ≤ low
  start : admitted = none → low = first
  found : ∀ m, admitted = some m → m + 1 = low ∧ first ≤ m ∧ m ≤ last ∧ p m

theorem greatestAdmitted_settled {first last : Nat} (positive : 0 < first) (inside : last < limit)
    (decides : ∀ n, first ≤ n → n ≤ last → ∃ b, admits n = .ok b ∧ (b = true ↔ p n))
    (falling : ∀ n n', first ≤ n → n ≤ n' → p n' → p n) (admitted : Option Nat)
    (settled : Settled p first last low high admitted) :
    ∃ r, greatestAdmitted admits limit trap low high admitted = .ok r ∧
      IsGreatest p first last r := by
  induction size : high + 1 - low using Nat.strongRecOn generalizing low high admitted with
  | _ n ih =>
      subst size
      obtain ⟨above, bounded, started, start, found⟩ := settled
      rw [greatestAdmitted]
      by_cases ahead : low ≤ high
      · rw [if_pos ahead]
        obtain ⟨b, asked, right⟩ := decides (low + (high - low) / 2) (by omega) (by omega)
        simp only [asked]
        cases b with
        | true =>
            simp only
            rw [if_pos (by omega)]
            apply ih _ (by omega) _ _ rfl
            refine ⟨above, bounded, by omega, by simp, ?_⟩
            intro m same
            cases same
            exact ⟨rfl, by omega, by omega, right.mp rfl⟩
        | false =>
            simp only
            rw [if_pos (by omega)]
            apply ih _ (by omega) _ _ rfl
            refine ⟨?_, by omega, started, start, found⟩
            intro n beyond within held
            have : p (low + (high - low) / 2) := falling _ n (by omega) (by omega) held
            exact absurd (right.mpr this) (by simp)
      · rw [if_neg ahead]
        refine ⟨admitted, rfl, ?_⟩
        cases admitted with
        | none =>
            intro n from_ within
            exact above n (by have := start rfl; omega) within
        | some m =>
            obtain ⟨next, least, most, held⟩ := found m rfl
            exact ⟨least, most, held, fun n beyond within => above n (by omega) within⟩

/-- Bisection finds the greatest admitted number, and its bounds stay in range. -/
theorem greatestAdmitted_spec (positive : 0 < low) (inside : high < limit)
    (decides : ∀ n, low ≤ n → n ≤ high → ∃ b, admits n = .ok b ∧ (b = true ↔ p n))
    (falling : ∀ n n', low ≤ n → n ≤ n' → p n' → p n) :
    ∃ r, greatestAdmitted admits limit trap low high none = .ok r ∧ IsGreatest p low high r :=
  greatestAdmitted_settled positive inside decides falling none
    ⟨fun n beyond within => by omega, Nat.le_refl _, Nat.le_refl _, fun _ => rfl, by simp⟩

end Bisection

theorem IsGreatest.found_of {p : Nat → Prop} {low high n : Nat} {r : Option Nat}
    (h : IsGreatest p low high r) (least : low ≤ n) (most : n ≤ high) (held : p n) :
    ∃ m, r = some m ∧ n ≤ m := by
  cases r with
  | none => exact absurd held (h n least most)
  | some m =>
      refine ⟨m, rfl, ?_⟩
      by_contra beyond
      exact h.2.2.2 n (by omega) most held

end DocumentSummarizer.Library
