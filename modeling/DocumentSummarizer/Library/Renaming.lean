import Mathlib

/-! # Renaming by position

Two lists without repetitions name the same things by their positions.  A name
of one list goes to the name of the other at its position, and back.
-/

namespace DocumentSummarizer.Library

universe u

variable {α : Type u} [BEq α] [LawfulBEq α] {xs ys : List α} {x y : α}

/-- The name of `ys` at the position of `x` in `xs`. -/
def rename (xs ys : List α) (x : α) : Option α :=
  (xs.idxOf? x).bind fun i => ys[i]?

theorem rename_eq_some_iff (nodup : xs.Nodup) :
    rename xs ys x = some y ↔ ∃ i : Nat, xs[i]? = some x ∧ ys[i]? = some y := by
  simp only [rename, Option.bind_eq_some_iff]
  constructor
  · rintro ⟨i, position, target⟩
    obtain ⟨inside, same, -⟩ := List.idxOf?_eq_some_iff.mp position
    exact ⟨i, List.getElem?_eq_some_iff.mpr ⟨inside, same⟩, target⟩
  · rintro ⟨i, source, target⟩
    obtain ⟨inside, same⟩ := List.getElem?_eq_some_iff.mp source
    refine ⟨i, List.idxOf?_eq_some_iff.mpr ⟨inside, same, ?_⟩, target⟩
    intro j before again
    have twice := (List.Nodup.getElem_inj_iff nodup).mp (again.trans same.symm)
    omega

theorem rename_comm (xsNodup : xs.Nodup) (ysNodup : ys.Nodup) :
    rename xs ys x = some y ↔ rename ys xs y = some x := by
  rw [rename_eq_some_iff xsNodup, rename_eq_some_iff ysNodup]
  constructor
  · rintro ⟨i, source, target⟩
    exact ⟨i, target, source⟩
  · rintro ⟨i, source, target⟩
    exact ⟨i, target, source⟩

theorem rename_mem (nodup : xs.Nodup) (h : rename xs ys x = some y) : x ∈ xs ∧ y ∈ ys := by
  obtain ⟨i, source, target⟩ := (rename_eq_some_iff nodup).mp h
  exact ⟨List.mem_of_getElem? source, List.mem_of_getElem? target⟩

theorem rename_of_mem (aligned : xs.length = ys.length) (mem : x ∈ xs) :
    ∃ y, rename xs ys x = some y := by
  obtain ⟨i, position⟩ := Option.isSome_iff_exists.mp (List.isSome_idxOf?.mpr mem)
  obtain ⟨inside, -⟩ := List.idxOf?_eq_some_iff.mp position
  have target : i < ys.length := aligned ▸ inside
  exact ⟨ys[i], by rw [rename, position, Option.bind_some, List.getElem?_eq_getElem target]⟩

theorem rename_of_idxOf (mem : x ∈ xs) : rename xs ys x = ys[xs.idxOf x]? := by
  have position : xs.idxOf? x = some (xs.idxOf x) := by
    obtain ⟨i, found⟩ := Option.isSome_iff_exists.mp (List.isSome_idxOf?.mpr mem)
    rw [found, List.idxOf_eq_getD_idxOf?, found, Option.getD_some]
  rw [rename, position, Option.bind_some]

theorem rename_inj {x' : α} (xsNodup : xs.Nodup) (ysNodup : ys.Nodup)
    (h : rename xs ys x = some y) (h' : rename xs ys x' = some y) : x = x' := by
  have back := (rename_comm xsNodup ysNodup).mp h
  rw [(rename_comm xsNodup ysNodup).mp h'] at back
  exact (Option.some.inj back).symm

theorem forall₂_rename (aligned : xs.length = ys.length) (nodup : xs.Nodup) :
    List.Forall₂ (fun x y => rename xs ys x = some y) xs ys := by
  refine List.forall₂_iff_get.mpr ⟨aligned, ?_⟩
  intro i source target
  refine (rename_eq_some_iff nodup).mpr ⟨i, ?_, ?_⟩
  · exact List.getElem?_eq_getElem source
  · exact List.getElem?_eq_getElem target

theorem map_some_of_forall₂_rename {names renamed : List α} (xsNodup : xs.Nodup)
    (ysNodup : ys.Nodup)
    (each : List.Forall₂ (fun x y => rename xs ys x = some y) names renamed) :
    names.map some = renamed.map (rename ys xs) := by
  induction each with
  | nil => rfl
  | cons first rest ih => simp [ih, (rename_comm xsNodup ysNodup).mp first]

theorem perm_of_forall₂_rename {names renamed : List α} (aligned : xs.length = ys.length)
    (xsNodup : xs.Nodup) (ysNodup : ys.Nodup)
    (each : List.Forall₂ (fun x y => rename xs ys x = some y) names renamed)
    (perm : renamed.Perm ys) : names.Perm xs := by
  apply (List.map_perm_map_iff (Option.some_injective α)).mp
  rw [map_some_of_forall₂_rename xsNodup ysNodup each,
    map_some_of_forall₂_rename xsNodup ysNodup (forall₂_rename aligned xsNodup)]
  exact perm.map _

/-! ## Names where they are seen first -/

section FirstSeen

theorem eraseDups_nodup (xs : List α) : xs.eraseDups.Nodup := by
  induction h : xs.length using Nat.strong_induction_on generalizing xs with
  | h n ih =>
      cases xs with
      | nil => exact List.nodup_nil
      | cons x rest =>
          have shorter : (rest.filter fun y => !y == x).length < n := by
            rw [← h, List.length_cons]
            exact Nat.lt_succ_of_le (List.length_filter_le _ _)
          rw [List.eraseDups_cons, List.nodup_cons]
          exact ⟨by simp, ih _ shorter _ rfl⟩

theorem eraseDups_eq_self (nodup : xs.Nodup) : xs.eraseDups = xs := by
  induction xs with
  | nil => rfl
  | cons x rest ih =>
      obtain ⟨fresh, nodup⟩ := List.nodup_cons.mp nodup
      have same : (rest.filter fun y => !y == x) = rest := by
        refine List.filter_eq_self.mpr fun y mem => ?_
        have apart : y ≠ x := fun equal => fresh (equal ▸ mem)
        simpa using apart
      rw [List.eraseDups_cons, same, ih nodup]

theorem idxOf_eraseDups_append (mem : x ∈ xs) :
    (xs ++ ys).eraseDups.idxOf x = xs.eraseDups.idxOf x := by
  rw [List.eraseDups_append]
  exact List.idxOf_append_of_mem (List.mem_eraseDups.mpr mem)

end FirstSeen

/-! ## Sums over different numbers -/

section DifferentNumbers

variable {g : Nat → Nat}

theorem sum_range_le_sum_of_increasing (mono : Monotone g) {start : Nat} {xs : List Nat}
    (above : ∀ n ∈ xs, start ≤ n) (increasing : xs.Pairwise (· < ·)) :
    ((List.range' start xs.length).map g).sum ≤ (xs.map g).sum := by
  induction xs generalizing start with
  | nil => exact Nat.le_refl _
  | cons n rest ih =>
      obtain ⟨larger, increasing⟩ := List.pairwise_cons.mp increasing
      have first := mono (above n List.mem_cons_self)
      have later := @ih (start + 1) (fun m mem =>
        Nat.lt_of_le_of_lt (above n List.mem_cons_self) (larger m mem)) increasing
      rw [List.length_cons, List.range'_succ, List.map_cons, List.map_cons, List.sum_cons,
        List.sum_cons]
      omega

theorem sum_range_le_sum (mono : Monotone g) {xs : List Nat} (nodup : xs.Nodup) :
    ((List.range xs.length).map g).sum ≤ (xs.map g).sum := by
  have sorted : (xs.mergeSort (· ≤ ·)).Pairwise (· ≤ ·) := List.pairwise_mergeSort' (· ≤ ·) xs
  have perm := List.mergeSort_perm xs (· ≤ ·)
  have increasing : (xs.mergeSort (· ≤ ·)).Pairwise (· < ·) :=
    sorted.imp₂ (fun _ _ le ne => Nat.lt_of_le_of_ne le ne) (perm.nodup_iff.mpr nodup)
  have bound := sum_range_le_sum_of_increasing mono (fun n _ => Nat.zero_le n) increasing
  rw [perm.length_eq, ← List.range_eq_range', (perm.map g).sum_eq] at bound
  exact bound

end DifferentNumbers

end DocumentSummarizer.Library
