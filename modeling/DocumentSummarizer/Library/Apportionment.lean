import Mathlib

/-! # Apportionment

Shares of a number are given out one at a time, each to the group whose share is smallest
for its size among the groups that are not full; of two that are equal the first has it.
-/

namespace DocumentSummarizer.Library

/-- A group and how much of it has been asked for. -/
structure Share where
  size : Nat
  quota : Nat
  deriving DecidableEq, Repr

namespace Share

def Full (share : Share) : Prop := share.size ≤ share.quota

instance {share : Share} : Decidable share.Full := inferInstanceAs (Decidable (_ ≤ _))

/-- A group goes before another when it is larger for the share it would then have. -/
def Precedes (share other : Share) : Prop :=
  other.size * (share.quota + 1) < share.size * (other.quota + 1)

instance {share other : Share} : Decidable (share.Precedes other) :=
  inferInstanceAs (Decidable (_ < _))

def grow (share : Share) : Share := { share with quota := share.quota + 1 }

@[simp] theorem grow_size (share : Share) : share.grow.size = share.size := rfl

@[simp] theorem grow_quota (share : Share) : share.grow.quota = share.quota + 1 := rfl

end Share

/-! ## The next group -/

/-- The loop over the groups, with the best one so far. -/
def preferred : Option (Nat × Share) → Nat → List Share → Option (Nat × Share)
  | best, _, [] => best
  | best, index, share :: later =>
      if share.Full then preferred best (index + 1) later
      else
        match best with
        | none => preferred (some (index, share)) (index + 1) later
        | some (current, held) =>
            if share.Precedes held then preferred (some (index, share)) (index + 1) later
            else preferred (some (current, held)) (index + 1) later

/-- A group that is held as the best one stands at its place and is not full. -/
def Stands (shares : List Share) (best : Nat × Share) : Prop :=
  shares[best.1]? = some best.2 ∧ ¬ best.2.Full

theorem preferred_stands {shares : List Share} {best : Option (Nat × Share)} {index : Nat}
    {found : Nat × Share} (held : ∀ b ∈ best, Stands shares b) :
    preferred best index (shares.drop index) = some found → Stands shares found := by
  generalize ahead : shares.drop index = later
  induction later generalizing best index with
  | nil =>
      intro same
      exact held found same
  | cons share later ih =>
      have here : shares[index]? = some share := by
        rw [← List.head?_drop, ahead, List.head?_cons]
      have next : shares.drop (index + 1) = later := by
        rw [← List.tail_drop, ahead, List.tail_cons]
      rw [preferred.eq_def]
      simp only
      by_cases full : share.Full
      · rw [if_pos full]
        exact ih held next
      · rw [if_neg full]
        cases best with
        | none => exact ih (by simpa using ⟨here, full⟩) next
        | some current =>
            simp only
            split
            · exact ih (by simpa using ⟨here, full⟩) next
            · exact ih held next

theorem preferred_eq_none {best : Option (Nat × Share)} {index : Nat} {shares : List Share} :
    preferred best index shares = none ↔ best = none ∧ ∀ share ∈ shares, share.Full := by
  induction shares generalizing best index with
  | nil => simp [preferred]
  | cons share later ih =>
      rw [preferred.eq_def]
      by_cases full : share.Full
      · simp [full, ih]
      · cases best with
        | none => simp [full, ih]
        | some current =>
            simp only [full, if_false]
            split <;> simp [ih]

/-! ## Giving out shares -/

/-- The given number of shares, when the groups have room for them. -/
def apportion : Nat → List Share → Option (List Share)
  | 0, shares => some shares
  | remaining + 1, shares =>
      match preferred none 0 shares with
      | none => none
      | some (index, _) => apportion remaining (shares.modify index Share.grow)

def quotaTotal (shares : List Share) : Nat := (shares.map Share.quota).sum

def sizeTotal (shares : List Share) : Nat := (shares.map Share.size).sum

theorem sizes_modify (shares : List Share) (index : Nat) :
    (shares.modify index Share.grow).map Share.size = shares.map Share.size := by
  induction shares generalizing index with
  | nil => simp
  | cons share later ih => cases index <;> simp [ih]

theorem quotaTotal_modify {shares : List Share} {index : Nat} (inside : index < shares.length) :
    quotaTotal (shares.modify index Share.grow) = quotaTotal shares + 1 := by
  induction shares generalizing index with
  | nil => simp at inside
  | cons share later ih =>
      cases index with
      | zero =>
          simp [quotaTotal]
          omega
      | succ index =>
          have rest := ih (by simpa using inside)
          simp only [quotaTotal, List.modify_succ_cons, List.map_cons, List.sum_cons] at rest ⊢
          omega

/-- Shares that have been given: no group has more than its size, and none less than before. -/
structure Apportioned (before after : List Share) : Prop where
  sizes : after.map Share.size = before.map Share.size
  grown : List.Forall₂ (fun share share' => share.quota ≤ share'.quota) before after
  within : (∀ share ∈ before, share.quota ≤ share.size) → ∀ share ∈ after, share.quota ≤ share.size

theorem Apportioned.refl (shares : List Share) : Apportioned shares shares where
  sizes := rfl
  grown := List.forall₂_same.mpr fun _ _ => Nat.le_refl _
  within := id

theorem Apportioned.trans {a b c : List Share} (h : Apportioned a b) (h' : Apportioned b c) :
    Apportioned a c where
  sizes := h'.sizes.trans h.sizes
  grown := by
    have step := h'.grown
    have start := h.grown
    clear h h'
    induction start generalizing c with
    | nil => cases step; exact .nil
    | cons le _ ih =>
        cases step with
        | cons le' rest => exact .cons (Nat.le_trans le le') (ih rest)
  within start := h'.within (h.within start)

theorem apportioned_modify {shares : List Share} {index : Nat} {share : Share}
    (here : shares[index]? = some share) (room : ¬ share.Full) :
    Apportioned shares (shares.modify index Share.grow) where
  sizes := sizes_modify shares index
  grown := by
    clear here
    induction shares generalizing index with
    | nil => simp
    | cons first later ih =>
        cases index with
        | zero => exact .cons (by simp) (List.forall₂_same.mpr fun _ _ => Nat.le_refl _)
        | succ index => exact .cons (Nat.le_refl _) ih
  within start other mem := by
    obtain ⟨i, inside, rfl⟩ := List.mem_iff_getElem.mp mem
    rw [List.length_modify] at inside
    rw [List.getElem_modify]
    split
    · next same =>
        subst same
        rw [List.getElem?_eq_getElem inside] at here
        cases here
        simp only [Share.Full, Nat.not_le] at room
        exact room
    · exact start _ (List.getElem_mem inside)

theorem apportion_spec {remaining : Nat} {shares given : List Share}
    (done : apportion remaining shares = some given) :
    Apportioned shares given ∧ quotaTotal given = quotaTotal shares + remaining := by
  induction remaining generalizing shares with
  | zero =>
      cases done
      exact ⟨.refl _, rfl⟩
  | succ remaining ih =>
      rw [apportion] at done
      cases next : preferred none 0 shares with
      | none => simp [next] at done
      | some best =>
          have stands := @preferred_stands shares none 0 _ (by simp) next
          simp only [next] at done
          obtain ⟨rest, total⟩ := ih done
          have inside := (List.getElem?_eq_some_iff.mp stands.1).1
          refine ⟨(apportioned_modify stands.1 stands.2).trans rest, ?_⟩
          rw [total, quotaTotal_modify inside]
          omega

theorem apportion_isSome {remaining : Nat} {shares : List Share}
    (within : ∀ share ∈ shares, share.quota ≤ share.size)
    (room : quotaTotal shares + remaining ≤ sizeTotal shares) :
    (apportion remaining shares).isSome = true := by
  induction remaining generalizing shares with
  | zero => rfl
  | succ remaining ih =>
      rw [apportion]
      cases next : preferred none 0 shares with
      | none =>
          have full := (preferred_eq_none.mp next).2
          have least : sizeTotal shares ≤ quotaTotal shares := List.sum_le_sum full
          omega
      | some best =>
          have stands := @preferred_stands shares none 0 _ (by simp) next
          have inside := (List.getElem?_eq_some_iff.mp stands.1).1
          apply ih ((apportioned_modify stands.1 stands.2).within within)
          rw [quotaTotal_modify inside, sizeTotal, sizes_modify, ← sizeTotal]
          omega

end DocumentSummarizer.Library
