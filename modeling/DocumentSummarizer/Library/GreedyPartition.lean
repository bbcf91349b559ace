import Mathlib.Data.List.Basic

/-! # Greedy partitions

A part takes items as long as it is admitted with them; an item that is not
admitted opens the next part.  Items joined with a separator into parts of a
target size are the special case.
-/

namespace DocumentSummarizer.Library

universe u

variable {α : Type u}

/-! ## Parts of admitted items -/

/-- The parts of the items, after the pending ones.  A part takes the next item when it is
admitted with it; there are no parts when that cannot be told. -/
def admittedParts (admits : List α → Option Bool) : List α → List α → Option (List (List α))
  | pending, [] => some (if pending = [] then [] else [pending])
  | pending, a :: rest =>
    match admits (pending ++ [a]) with
    | none => none
    | some admitted =>
      if admitted = true ∨ pending = [] then admittedParts admits (pending ++ [a]) rest
      else (admittedParts admits [a] rest).map (pending :: ·)

/-- Several items in a part are admitted, and they are not with the next item. -/
structure Admitted (admits : List α → Option Bool) (parts : List (List α)) : Prop where
  nonempty : ∀ part ∈ parts, part ≠ []
  admitted : ∀ part ∈ parts, 2 ≤ part.length → admits part = some true
  maximal : parts.IsChain fun part later =>
    ∀ next ∈ later.head?, admits (part ++ [next]) = some false

section Admission

variable {admits : List α → Option Bool} {pending rest : List α} {parts : List (List α)} {a : α}

/-- The next item is added to the pending ones, or it opens a part behind them. -/
theorem admittedParts_cons :
    admittedParts admits pending (a :: rest) = some parts ↔
      ((admits (pending ++ [a]) = some true ∨
          pending = [] ∧ admits (pending ++ [a]) = some false) ∧
        admittedParts admits (pending ++ [a]) rest = some parts) ∨
      (admits (pending ++ [a]) = some false ∧ pending ≠ [] ∧
        ∃ later, admittedParts admits [a] rest = some later ∧ parts = pending :: later) := by
  rw [admittedParts]
  cases told : admits (pending ++ [a]) with
  | none => simp
  | some admitted =>
      by_cases none : pending = []
      · cases admitted <;> simp [none]
      · cases admitted <;> simp [none, Option.map_eq_some_iff, @eq_comm _ parts]

theorem admittedParts_flatten (h : admittedParts admits pending rest = some parts) :
    parts.flatten = pending ++ rest := by
  induction rest generalizing pending parts with
  | nil =>
      obtain rfl := Option.some.inj h
      split
      · next none => simp [none]
      · simp
  | cons a rest ih =>
      rcases admittedParts_cons.mp h with ⟨-, more⟩ | ⟨-, -, later, behind, rfl⟩
      · simp [ih more]
      · simp [ih behind]

/-- The pending items start the first part. -/
theorem admittedParts_head (nonempty : pending ≠ [])
    (h : admittedParts admits pending rest = some parts) :
    ∃ more behind, parts = (pending ++ more) :: behind := by
  induction rest generalizing pending parts with
  | nil =>
      obtain rfl := Option.some.inj h
      exact ⟨[], [], by simp [nonempty]⟩
  | cons a rest ih =>
      rcases admittedParts_cons.mp h with ⟨-, more⟩ | ⟨-, -, later, -, rfl⟩
      · obtain ⟨others, behind, rfl⟩ := ih (by simp) more
        exact ⟨a :: others, behind, by simp⟩
      · exact ⟨[], later, by simp⟩

/-- A closed part goes before parts that start with an item that was not admitted. -/
theorem Admitted.cons {more : List α} {behind : List (List α)}
    (h : Admitted admits (([a] ++ more) :: behind)) (nonempty : pending ≠ [])
    (admitted : 2 ≤ pending.length → admits pending = some true)
    (full : admits (pending ++ [a]) = some false) :
    Admitted admits (pending :: ([a] ++ more) :: behind) where
  nonempty := List.forall_mem_cons.mpr ⟨nonempty, h.nonempty⟩
  admitted := List.forall_mem_cons.mpr ⟨admitted, h.admitted⟩
  maximal := by
    refine List.isChain_cons_cons.mpr ⟨?_, h.maximal⟩
    intro next first
    obtain rfl := Option.some.inj first
    exact full

theorem admittedParts_admitted (admitted : 2 ≤ pending.length → admits pending = some true)
    (h : admittedParts admits pending rest = some parts) : Admitted admits parts := by
  induction rest generalizing pending parts with
  | nil =>
      obtain rfl := Option.some.inj h
      split
      · exact ⟨nofun, nofun, .nil⟩
      · next nonempty =>
          refine ⟨?_, ?_, .singleton _⟩
          · simpa using nonempty
          · simpa using admitted
  | cons a rest ih =>
      rcases admittedParts_cons.mp h with ⟨room, more⟩ | ⟨full, nonempty, later, behind, rfl⟩
      · refine ih (fun several => ?_) more
        rcases room with room | ⟨none, -⟩
        · exact room
        · subst none
          exact absurd several (by simp)
      · have tail := ih (fun several => absurd several (by simp)) behind
        obtain ⟨more, others, rfl⟩ := admittedParts_head (by simp) behind
        exact tail.cons nonempty admitted full

theorem admittedParts_isSome
    (told : ∀ part, part ≠ [] → part <:+: pending ++ rest → (admits part).isSome) :
    (admittedParts admits pending rest).isSome := by
  induction rest generalizing pending with
  | nil => rfl
  | cons a rest ih =>
      have whole : pending ++ a :: rest = (pending ++ [a]) ++ rest := by simp
      have more := ih (whole ▸ told)
      have behind := @ih [a] fun part nonempty inside =>
        told part nonempty (inside.trans ⟨pending, [], by simp⟩)
      obtain ⟨admitted, answer⟩ := Option.isSome_iff_exists.mp
        (told (pending ++ [a]) (by simp) ⟨[], rest, by simp⟩)
      rw [admittedParts, answer]
      by_cases room : admitted = true ∨ pending = []
      · simp only [if_pos room]
        exact more
      · simp only [if_neg room, Option.isSome_map]
        exact behind

theorem admittedParts_map {β : Type u} {f : β → α} {pending rest : List β} :
    (admittedParts (fun part => admits (part.map f)) pending rest).map (·.map (·.map f)) =
      admittedParts admits (pending.map f) (rest.map f) := by
  induction rest generalizing pending with
  | nil =>
      by_cases none : pending = []
      · simp [admittedParts, none]
      · simp [admittedParts, none]
  | cons b rest ih =>
      rw [List.map_cons, admittedParts, admittedParts]
      have whole : (pending ++ [b]).map f = pending.map f ++ [f b] := by simp
      rw [whole]
      cases admits (pending.map f ++ [f b]) with
      | none => rfl
      | some admitted =>
          have more := @ih (pending ++ [b])
          have behind := @ih [b]
          simp only [List.map_eq_nil_iff]
          split
          · rw [more, whole]
          · rw [← List.map_singleton, ← behind, Option.map_map, Option.map_map]
            rfl

end Admission

/-! ## Parts of a target size -/

section Joining

variable {size : α → Nat} {separator : Nat} {a : α} {as : List α}

/-- The size of the joined items. -/
def joinedSize (size : α → Nat) (separator : Nat) : List α → Nat
  | [] => 0
  | [a] => size a
  | a :: b :: rest => size a + separator + joinedSize size separator (b :: rest)

theorem joinedSize_cons (nonempty : as ≠ []) :
    joinedSize size separator (a :: as) = size a + separator + joinedSize size separator as := by
  cases as with
  | nil => exact absurd rfl nonempty
  | cons b rest => rfl

theorem joinedSize_snoc (nonempty : as ≠ []) :
    joinedSize size separator (as ++ [a]) = joinedSize size separator as + separator + size a := by
  induction as with
  | nil => exact absurd rfl nonempty
  | cons b rest ih =>
      by_cases alone : rest = []
      · subst alone
        rfl
      · rw [List.cons_append, joinedSize_cons (by simp), joinedSize_cons alone, ih alone]
        omega

theorem size_le_joinedSize (mem : a ∈ as) : size a ≤ joinedSize size separator as := by
  induction as with
  | nil => exact absurd mem List.not_mem_nil
  | cons b rest ih =>
      by_cases alone : rest = []
      · subst alone
        rw [List.mem_singleton.mp mem]
        exact Nat.le_refl _
      · rw [joinedSize_cons alone]
        rcases List.mem_cons.mp mem with rfl | later
        · omega
        · have bound := ih later
          omega

end Joining

/-- The parts of the items, after the pending ones. -/
def greedyParts (size : α → Nat) (separator target : Nat) : List α → List α → List (List α)
  | pending, [] => if pending = [] then [] else [pending]
  | pending, a :: rest =>
    if pending ≠ [] ∧ joinedSize size separator (pending ++ [a]) > target then
      pending :: greedyParts size separator target [a] rest
    else
      greedyParts size separator target (pending ++ [a]) rest

/-- Several items in a part fit the target, and the next item would not. -/
structure IsGreedy (size : α → Nat) (separator target : Nat) (parts : List (List α)) : Prop where
  nonempty : ∀ part ∈ parts, part ≠ []
  fits : ∀ part ∈ parts, 2 ≤ part.length → joinedSize size separator part ≤ target
  maximal : parts.IsChain fun part later =>
    ∀ next ∈ later.head?, target < joinedSize size separator (part ++ [next])

section Greedy

variable {size : α → Nat} {separator target : Nat} {pending rest : List α}

/-- The joined items fit the target. -/
def fitsTarget (size : α → Nat) (separator target : Nat) (part : List α) : Option Bool :=
  some (decide (joinedSize size separator part ≤ target))

theorem greedyParts_admitted :
    admittedParts (fitsTarget size separator target) pending rest =
      some (greedyParts size separator target pending rest) := by
  induction rest generalizing pending with
  | nil => rfl
  | cons a rest ih =>
      rw [admittedParts, greedyParts]
      simp only [fitsTarget]
      by_cases none : pending = []
      · rw [if_pos (.inr none), if_neg (fun full => full.1 none), ih]
      · by_cases room : joinedSize size separator (pending ++ [a]) ≤ target
        · rw [if_pos (.inl (decide_eq_true room)), if_neg (fun full => Nat.not_lt.mpr room full.2),
            ih]
        · rw [if_neg (by simp [none, room]), if_pos ⟨none, Nat.not_le.mp room⟩, ih,
            Option.map_some]

theorem greedyParts_flatten :
    (greedyParts size separator target pending rest).flatten = pending ++ rest :=
  admittedParts_flatten greedyParts_admitted

theorem greedyParts_isGreedy
    (fits : 2 ≤ pending.length → joinedSize size separator pending ≤ target) :
    IsGreedy size separator target (greedyParts size separator target pending rest) := by
  have judged := @admittedParts_admitted _ (fitsTarget size separator target) _ _ _
    (fun several => congrArg some (decide_eq_true (fits several)))
    (@greedyParts_admitted α size separator target pending rest)
  refine ⟨judged.nonempty, ?_, ?_⟩
  · intro part mem several
    exact of_decide_eq_true (Option.some.inj (judged.admitted part mem several))
  · refine judged.maximal.imp fun part later full next first => ?_
    exact Nat.not_le.mp (of_decide_eq_false (Option.some.inj (full next first)))

end Greedy

end DocumentSummarizer.Library
