import Mathlib

/-! # Taking turns

Queues with keys give one item each in every round.  Where the first occurrence
of every item is kept, each queue has given an item before one gives its second.
-/

namespace DocumentSummarizer.Library

variable {α κ : Type*}

section Firsts

variable [DecidableEq α]

/-- The first occurrence of every item that is not among those seen. -/
def firstsAfter : List α → List α → List α
  | _, [] => []
  | seen, a :: rest =>
    if a ∈ seen then firstsAfter seen rest else a :: firstsAfter (a :: seen) rest

theorem mem_firstsAfter {seen items : List α} {a : α} :
    a ∈ firstsAfter seen items ↔ a ∈ items ∧ a ∉ seen := by
  induction items generalizing seen with
  | nil => simp [firstsAfter]
  | cons b rest ih =>
      unfold firstsAfter
      split
      next old =>
        rw [ih, List.mem_cons]
        constructor
        · exact fun ⟨mem, new⟩ => ⟨.inr mem, new⟩
        · rintro ⟨rfl | mem, new⟩
          · exact absurd old new
          · exact ⟨mem, new⟩
      next new =>
        rw [List.mem_cons, List.mem_cons, ih, List.mem_cons, not_or]
        constructor
        · rintro (rfl | ⟨mem, -, unseen⟩)
          · exact ⟨.inl rfl, new⟩
          · exact ⟨.inr mem, unseen⟩
        · rintro ⟨rfl | mem, unseen⟩
          · exact .inl rfl
          · by_cases same : a = b
            · exact .inl same
            · exact .inr ⟨mem, same, unseen⟩

theorem firstsAfter_nodup {seen items : List α} : (firstsAfter seen items).Nodup := by
  induction items generalizing seen with
  | nil => exact List.nodup_nil
  | cons b rest ih =>
      unfold firstsAfter
      split
      · exact ih
      · exact List.nodup_cons.mpr ⟨fun mem => (mem_firstsAfter.mp mem).2 List.mem_cons_self, ih⟩

theorem firstsAfter_length_le {seen items : List α} :
    (firstsAfter seen items).length ≤ items.length := by
  induction items generalizing seen with
  | nil => exact Nat.le_refl _
  | cons b rest ih =>
      unfold firstsAfter
      split
      · exact Nat.le_succ_of_le ih
      · exact Nat.succ_le_succ ih

/-- What stands in front of a kept item has all been kept, or was seen. -/
theorem firstsAfter_split {seen items front back : List α} {a : α}
    (h : firstsAfter seen items = front ++ a :: back) :
    ∃ before after, items = before ++ a :: after ∧ (∀ b ∈ front, b ∈ before) ∧
      ∀ b ∈ before, b ∈ front ∨ b ∈ seen := by
  induction items generalizing seen front with
  | nil => simp [firstsAfter] at h
  | cons c rest ih =>
      unfold firstsAfter at h
      split at h
      next old =>
        obtain ⟨before, after, rfl, kept, all⟩ := ih h
        refine ⟨c :: before, after, rfl, fun b mem => List.mem_cons_of_mem _ (kept b mem), ?_⟩
        intro b mem
        rcases List.mem_cons.mp mem with rfl | later
        · exact .inr old
        · exact all b later
      next new =>
        cases front with
        | nil =>
            obtain ⟨rfl, -⟩ := List.cons.inj h
            exact ⟨[], rest, rfl, fun _ mem => absurd mem List.not_mem_nil,
              fun _ mem => absurd mem List.not_mem_nil⟩
        | cons d front =>
            obtain ⟨rfl, kept_later⟩ := List.cons.inj h
            obtain ⟨before, after, rfl, kept, all⟩ := ih kept_later
            refine ⟨c :: before, after, rfl, ?_, ?_⟩
            · intro b mem
              rcases List.mem_cons.mp mem with rfl | later
              · exact List.mem_cons_self
              · exact List.mem_cons_of_mem _ (kept b later)
            · intro b mem
              rcases List.mem_cons.mp mem with rfl | later
              · exact .inl List.mem_cons_self
              rcases all b later with old | seen
              · exact .inl (List.mem_cons_of_mem _ old)
              rcases List.mem_cons.mp seen with rfl | old
              · exact .inl List.mem_cons_self
              · exact .inr old

end Firsts

/-! ## Rounds -/

/-- What the queues give in one round. -/
def turn (round : Nat) (queues : List (κ × List α)) : List (κ × α) :=
  queues.filterMap fun queue => queue.2[round]?.map fun item => (queue.1, item)

def longest (queues : List (κ × List α)) : Nat :=
  (queues.map fun queue => queue.2.length).foldr max 0

def rounds (count : Nat) (queues : List (κ × List α)) : List (κ × α) :=
  (List.range count).flatMap fun round => turn round queues

def roundRobin (queues : List (κ × List α)) : List (κ × α) :=
  rounds (longest queues) queues

section Rounds

variable {queues : List (κ × List α)}

theorem mem_turn {round : Nat} {given : κ × α} :
    given ∈ turn round queues ↔ ∃ items, (given.1, items) ∈ queues ∧ items[round]? = some given.2 := by
  simp only [turn, List.mem_filterMap, Option.map_eq_some_iff]
  constructor
  · rintro ⟨⟨key, items⟩, mem, item, found, rfl⟩
    exact ⟨items, mem, found⟩
  · rintro ⟨items, mem, found⟩
    exact ⟨_, mem, _, found, rfl⟩

theorem length_le_longest {queue : κ × List α} (mem : queue ∈ queues) :
    queue.2.length ≤ longest queues := by
  induction queues with
  | nil => cases mem
  | cons first rest ih =>
      simp only [longest, List.map_cons, List.foldr_cons] at ih ⊢
      rcases List.mem_cons.mp mem with rfl | later
      · exact Nat.le_max_left _ _
      · exact (ih later).trans (Nat.le_max_right _ _)

theorem mem_roundRobin {given : κ × α} :
    given ∈ roundRobin queues ↔ ∃ items, (given.1, items) ∈ queues ∧ given.2 ∈ items := by
  simp only [roundRobin, rounds, List.mem_flatMap, List.mem_range, mem_turn]
  constructor
  · rintro ⟨round, -, items, mem, found⟩
    exact ⟨items, mem, List.mem_of_getElem? found⟩
  · rintro ⟨items, mem, offered⟩
    obtain ⟨round, found⟩ := List.getElem?_of_mem offered
    obtain ⟨inside, -⟩ := List.getElem?_eq_some_iff.mp found
    exact ⟨round, inside.trans_le (length_le_longest mem), items, mem, found⟩

theorem turn_keys (round : Nat) (queues : List (κ × List α)) :
    ((turn round queues).map Prod.fst).Sublist (queues.map Prod.fst) := by
  induction queues with
  | nil => exact List.Sublist.refl _
  | cons first rest ih =>
      rw [List.map_cons]
      cases found : first.2[round]? with
      | none =>
          rw [turn, List.filterMap_cons_none (by rw [found]; rfl)]
          exact ih.cons _
      | some item =>
          rw [turn, List.filterMap_cons_some (b := (first.1, item)) (by rw [found]; rfl),
            List.map_cons]
          exact ih.cons_cons _

theorem roundRobin_first (some_item : 0 < longest queues) :
    ∃ later, roundRobin queues = turn 0 queues ++ later := by
  obtain ⟨count, same⟩ := Nat.exists_eq_succ_of_ne_zero some_item.ne'
  rw [roundRobin, same, rounds, List.range_succ_eq_map, List.flatMap_cons]
  exact ⟨_, rfl⟩

/-- Before a queue gives a second item that is kept, every queue with items has given one. -/
theorem firsts_roundRobin_fair [DecidableEq κ] [DecidableEq α]
    (distinct : (queues.map Prod.fst).Nodup) {front back : List (κ × α)} {given : κ × α}
    (h : firstsAfter [] (roundRobin queues) = front ++ given :: back)
    (again : given.1 ∈ front.map Prod.fst) {queue : κ × List α} (mem : queue ∈ queues)
    (offers : queue.2 ≠ []) : queue.1 ∈ front.map Prod.fst := by
  have some_item : 0 < longest queues :=
    (List.length_pos_iff.mpr offers).trans_le (length_le_longest mem)
  obtain ⟨before, after, whole, kept, all⟩ := firstsAfter_split h
  obtain ⟨later, opens⟩ := roundRobin_first some_item
  rw [opens] at whole
  have some_item : 0 < queue.2.length := List.length_pos_iff.mpr offers
  rcases List.append_eq_append_iff.mp whole with ⟨part, rfl, -⟩ | ⟨part, split, rest⟩
  · -- the first round is over
    have first : (queue.1, queue.2[0]) ∈ turn 0 queues :=
      mem_turn.mpr ⟨_, mem, List.getElem?_eq_getElem _⟩
    rcases all _ (List.mem_append_left _ first) with given | seen
    · exact List.mem_map_of_mem given
    · cases seen
  cases part with
  | nil =>
      rw [List.append_nil] at split
      subst split
      have first : (queue.1, queue.2[0]) ∈ turn 0 queues :=
        mem_turn.mpr ⟨_, mem, List.getElem?_eq_getElem _⟩
      rcases all _ first with given | seen
      · exact List.mem_map_of_mem given
      · cases seen
  | cons next part =>
      -- in the first round no key comes twice
      obtain ⟨rfl, -⟩ := List.cons.inj rest
      have once := (turn_keys 0 queues).nodup distinct
      rw [split, List.map_append, List.nodup_append] at once
      obtain ⟨other, other_mem, same⟩ := List.mem_map.mp again
      exact absurd same (once.2.2 _ (List.mem_map_of_mem (kept other other_mem)) _
        List.mem_cons_self)

theorem turn_cons (round : Nat) (queue : κ × List α) (rest : List (κ × List α)) :
    (turn round (queue :: rest)).length = queue.2[round]?.toList.length + (turn round rest).length := by
  cases found : queue.2[round]? with
  | none =>
      rw [turn, List.filterMap_cons_none (by rw [found]; rfl), turn]
      simp
  | some item =>
      rw [turn, List.filterMap_cons_some (b := (queue.1, item)) (by rw [found]; rfl), turn]
      simp [Nat.add_comm]

theorem given_by_one (items : List α) (count : Nat) :
    ((List.range count).map fun round => items[round]?.toList.length).sum = min count items.length := by
  induction count with
  | zero => simp
  | succ count ih =>
      rw [List.range_succ, List.map_append, List.sum_append, ih]
      by_cases inside : count < items.length
      · simp [inside]
        omega
      · simp [inside]
        omega

theorem length_rounds_le (count : Nat) (queues : List (κ × List α)) :
    (rounds count queues).length ≤ (queues.map fun queue => queue.2.length).sum := by
  induction queues with
  | nil => simp [rounds, turn]
  | cons queue rest ih =>
      simp only [rounds, List.length_flatMap, turn_cons, List.map_cons, List.sum_cons] at ih ⊢
      rw [List.sum_map_add, given_by_one]
      exact Nat.add_le_add (Nat.min_le_right _ _) ih

end Rounds

end DocumentSummarizer.Library
