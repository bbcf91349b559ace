import Mathlib.Data.Finset.Basic
import Mathlib.Data.Nat.Bitwise

/-! # Submasks

Masks of a fixed width as sets of positions, and the walk over the submasks of a mask
in falling order: from a submask, the next one is what is left of the number below it.
-/

namespace DocumentSummarizer.Library

/-! ## Numbers -/

/-- Of the submasks below a submask, the next one of the walk is the greatest. -/
theorem submask_le_next {a s t : Nat} (sub : s &&& a = s) (below : t &&& a = t) (less : t < s) :
    t ≤ (s - 1) &&& a := by
  induction s using Nat.strong_induction_on generalizing a t with
  | _ s ih =>
      have subHalf : s / 2 &&& a / 2 = s / 2 := by rw [← Nat.and_div_two, sub]
      have belowHalf : t / 2 &&& a / 2 = t / 2 := by rw [← Nat.and_div_two, below]
      have tBit : t % 2 = 1 → a % 2 = 1 := by
        intro odd
        rw [← below] at odd
        exact (Nat.and_mod_two_eq_one.mp odd).2
      have nextHalf : ((s - 1) &&& a) / 2 = (s - 1) / 2 &&& a / 2 := Nat.and_div_two
      by_cases odd : s % 2 = 1
      · have halves : (s - 1) / 2 = s / 2 := by omega
        rw [halves, subHalf] at nextHalf
        omega
      · have halves : (s - 1) / 2 = s / 2 - 1 := by omega
        have step := ih (s / 2) (by omega) subHalf belowHalf
        have nextBit : ((s - 1) &&& a) % 2 = 1 ↔ (s - 1) % 2 = 1 ∧ a % 2 = 1 :=
          Nat.and_mod_two_eq_one
        rw [halves] at nextHalf
        by_cases strict : t / 2 < s / 2
        · have := step strict
          omega
        · omega

/-! ## Masks -/

section Masks

variable {w : Nat}

/-- A mask lies in another. -/
def Submask (s a : BitVec w) : Prop := s &&& a = s

theorem submask_iff {s a : BitVec w} :
    Submask s a ↔ ∀ i, s.getLsbD i = true → a.getLsbD i = true := by
  constructor
  · intro sub i held
    rw [← sub] at held
    simpa using (by simpa using held : s.getLsbD i = true ∧ a.getLsbD i = true).2
  · intro bits
    apply BitVec.eq_of_getLsbD_eq
    intro i _
    simp only [BitVec.getLsbD_and]
    cases held : s.getLsbD i with
    | false => simp
    | true => simp [bits i held]

theorem submask_refl (a : BitVec w) : Submask a a := by simp [Submask]

theorem submask_toNat {s a : BitVec w} (sub : Submask s a) : s.toNat &&& a.toNat = s.toNat := by
  rw [← BitVec.toNat_and, sub]

/-- The next submask of the walk. -/
def nextSubmask (s a : BitVec w) : BitVec w := (s - 1) &&& a

theorem nextSubmask_submask (s a : BitVec w) : Submask (nextSubmask s a) a := by
  simp [Submask, nextSubmask, BitVec.and_assoc]

theorem nextSubmask_toNat {s : BitVec w} (nonzero : s ≠ 0) (a : BitVec w) :
    (nextSubmask s a).toNat = (s.toNat - 1) &&& a.toNat := by
  have positive : 0 < s.toNat := by
    rcases Nat.eq_zero_or_pos s.toNat with zero | positive
    · exact absurd (BitVec.eq_of_toNat_eq (by simpa using zero)) nonzero
    · exact positive
  have bound := s.isLt
  have sized : 0 < w := by
    rcases Nat.eq_zero_or_pos w with rfl | sized
    · simp at bound
      omega
    · exact sized
  have one : (1 : BitVec w).toNat = 1 := by
    simp [Nat.mod_eq_of_lt (Nat.one_lt_two_pow sized.ne')]
  have le : (1 : BitVec w) ≤ s := by
    rw [BitVec.le_def, one]
    exact positive
  rw [nextSubmask, BitVec.toNat_and, BitVec.toNat_sub_of_le le, one]

theorem nextSubmask_lt {s : BitVec w} (nonzero : s ≠ 0) (a : BitVec w) :
    (nextSubmask s a).toNat < s.toNat := by
  have positive : 0 < s.toNat := by
    rcases Nat.eq_zero_or_pos s.toNat with zero | positive
    · exact absurd (BitVec.eq_of_toNat_eq (by simpa using zero)) nonzero
    · exact positive
  rw [nextSubmask_toNat nonzero]
  have := Nat.and_le_left (n := s.toNat - 1) (m := a.toNat)
  omega

theorem submask_toNat_le {s a : BitVec w} (sub : Submask s a) : s.toNat ≤ a.toNat := by
  have held := submask_toNat sub
  have := Nat.and_le_right (n := s.toNat) (m := a.toNat)
  omega

theorem toNat_le_nextSubmask {s t a : BitVec w} (sub : Submask s a) (below : Submask t a)
    (less : t.toNat < s.toNat) : t.toNat ≤ (nextSubmask s a).toNat := by
  have nonzero : s ≠ 0 := by
    intro zero
    simp [zero] at less
  rw [nextSubmask_toNat nonzero]
  exact submask_le_next (submask_toNat sub) (submask_toNat below) less

theorem and_bit_eq_zero {s : BitVec w} {i : Nat} :
    s &&& (1#w <<< i) = 0#w ↔ s.getLsbD i = false := by
  constructor
  · intro clear
    have bit := congrArg (fun mask => mask.getLsbD i) clear
    by_cases inside : i < w
    · simpa [inside, show 0 < w by omega] using bit
    · exact BitVec.getLsbD_of_ge _ _ (Nat.le_of_not_lt inside)
  · intro clear
    apply BitVec.eq_of_getLsbD_eq
    intro j inside
    simp only [BitVec.getLsbD_and, BitVec.getLsbD_shiftLeft, BitVec.getLsbD_zero]
    by_cases same : j = i
    · subst same
      simp [clear]
    · have other : j < i ∨ j - i ≠ 0 := by omega
      rcases other with before | behind
      · simp [before]
      · simp [BitVec.getLsbD_one, behind]

/-! ## Masks as sets of positions -/

/-- The positions of a mask. -/
def positionsOf (mask : BitVec w) : Finset Nat :=
  (Finset.range w).filter (fun i => mask.getLsbD i = true)

@[simp] theorem mem_positionsOf {mask : BitVec w} {i : Nat} :
    i ∈ positionsOf mask ↔ mask.getLsbD i = true := by
  simp only [positionsOf, Finset.mem_filter, Finset.mem_range, and_iff_right_iff_imp]
  exact BitVec.lt_of_getLsbD

theorem positionsOf_injective {s t : BitVec w} (same : positionsOf s = positionsOf t) : s = t := by
  apply BitVec.eq_of_getLsbD_eq
  intro i _
  rw [Bool.eq_iff_iff, ← mem_positionsOf, same, mem_positionsOf]

theorem positionsOf_or (s t : BitVec w) : positionsOf (s ||| t) = positionsOf s ∪ positionsOf t := by
  ext i
  simp

theorem positionsOf_eq_empty {s : BitVec w} : positionsOf s = ∅ ↔ s = 0 := by
  constructor
  · intro none
    apply positionsOf_injective
    rw [none]
    ext i
    simp
  · rintro rfl
    ext i
    simp

theorem submask_iff_subset {s a : BitVec w} : Submask s a ↔ positionsOf s ⊆ positionsOf a := by
  rw [submask_iff, Finset.subset_iff]
  simp

/-- The mask of a set of positions. -/
def maskOf (positions : Finset Nat) : BitVec w :=
  BitVec.ofNat w (Nat.ofBits (fun i : Fin w => decide (i.val ∈ positions)))

@[simp] theorem getLsbD_maskOf (positions : Finset Nat) (i : Nat) :
    (maskOf (w := w) positions).getLsbD i = true ↔ i < w ∧ i ∈ positions := by
  rw [maskOf, BitVec.getLsbD_ofNat]
  by_cases inside : i < w
  · simp [inside, Nat.testBit_ofBits_lt]
  · simp [inside]

theorem positionsOf_maskOf {positions : Finset Nat} (inside : ∀ i ∈ positions, i < w) :
    positionsOf (maskOf (w := w) positions) = positions := by
  ext i
  simp only [mem_positionsOf, getLsbD_maskOf, and_iff_right_iff_imp]
  exact inside i

end Masks

end DocumentSummarizer.Library
