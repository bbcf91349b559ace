import Mathlib.Data.List.Forall2

/-! # Sequences of partial computations

A list of computations that may not have a result, and tables searched by key.
-/

namespace DocumentSummarizer.Library

universe u v

variable {α : Type u} {β : Type v}

theorem mapM_some_iff {f : α → Option β} {as : List α} {bs : List β} :
    as.mapM f = some bs ↔ List.Forall₂ (fun a b => f a = some b) as bs := by
  induction as generalizing bs with
  | nil => simp [eq_comm]
  | cons a rest ih =>
      simp only [List.mapM_cons, bind, Option.bind_eq_some_iff, pure, Option.some.injEq,
        List.forall₂_cons_left_iff, ih]
      constructor
      · rintro ⟨b, first, later, rest, rfl⟩
        exact ⟨b, later, first, rest, rfl⟩
      · rintro ⟨b, later, first, rest, rfl⟩
        exact ⟨b, first, later, rest, rfl⟩

theorem mapM_exists {f : α → Option β} {as : List α} (each : ∀ a ∈ as, ∃ b, f a = some b) :
    ∃ bs, as.mapM f = some bs := by
  induction as with
  | nil => exact ⟨[], rfl⟩
  | cons a rest ih =>
      obtain ⟨b, first⟩ := each a List.mem_cons_self
      obtain ⟨bs, later⟩ := ih fun a mem => each a (List.mem_cons_of_mem _ mem)
      exact ⟨b :: bs, mapM_some_iff.mpr (.cons first (mapM_some_iff.mp later))⟩

theorem mapM_mem {f : α → Option β} {as : List α} {bs : List β} (h : as.mapM f = some bs)
    {b : β} (mem : b ∈ bs) : ∃ a ∈ as, f a = some b := by
  have all := mapM_some_iff.mp h
  clear h
  induction all with
  | nil => exact absurd mem List.not_mem_nil
  | @cons a first as bs found _ ih =>
      rcases List.mem_cons.mp mem with rfl | later
      · exact ⟨a, List.mem_cons_self, found⟩
      · obtain ⟨a', inside, found'⟩ := ih later
        exact ⟨a', List.mem_cons_of_mem _ inside, found'⟩

theorem mapM_zip {f : α → Option β} {as : List α} {bs : List β} (h : as.mapM f = some bs) :
    (∀ pair ∈ as.zip bs, pair.1 ∈ as ∧ f pair.1 = some pair.2) ∧
      ∀ a ∈ as, ∃ b, (a, b) ∈ as.zip bs := by
  have all := mapM_some_iff.mp h
  clear h
  induction all with
  | nil => simp
  | @cons a b as bs found _ ih =>
      obtain ⟨sound, complete⟩ := ih
      constructor
      · intro pair mem
        rcases List.mem_cons.mp mem with rfl | later
        · exact ⟨List.mem_cons_self, found⟩
        · exact ⟨List.mem_cons_of_mem _ (sound pair later).1, (sound pair later).2⟩
      · intro other mem
        rcases List.mem_cons.mp mem with rfl | later
        · exact ⟨b, List.mem_cons_self⟩
        · obtain ⟨b', inside⟩ := complete other later
          exact ⟨b', List.mem_cons_of_mem _ inside⟩

theorem mapM_some_map {γ : Type*} {f : α → Option β} {g : α → γ} {value : β → γ} {as : List α}
    {bs : List β} (h : as.mapM f = some bs) (each : ∀ a ∈ as, ∀ b, f a = some b → value b = g a) :
    bs.map value = as.map g := by
  have all := mapM_some_iff.mp h
  clear h
  induction all with
  | nil => rfl
  | @cons a b as bs found _ ih =>
      rw [List.map_cons, List.map_cons, each a List.mem_cons_self b found,
        ih fun other mem => each other (List.mem_cons_of_mem _ mem)]

theorem forall₂_left_exists {R : α → β → Prop} {as : List α} {bs : List β}
    (h : List.Forall₂ R as bs) {a : α} (mem : a ∈ as) : ∃ b ∈ bs, R a b := by
  induction h with
  | nil => exact absurd mem List.not_mem_nil
  | cons first _ ih =>
      rcases List.mem_cons.mp mem with rfl | later
      · exact ⟨_, List.mem_cons_self, first⟩
      · obtain ⟨b, inside, related⟩ := ih later
        exact ⟨b, List.mem_cons_of_mem _ inside, related⟩

theorem forall₂_right_exists {R : α → β → Prop} {as : List α} {bs : List β}
    (h : List.Forall₂ R as bs) {b : β} (mem : b ∈ bs) : ∃ a ∈ as, R a b := by
  obtain ⟨a, inside, related⟩ := forall₂_left_exists h.flip mem
  exact ⟨a, inside, related⟩

theorem mapM_flatMap {γ δ : Type*} {f : α → Option β} {parts : γ → List α}
    {results : δ → List β} {cs : List γ} {ds : List δ}
    (h : List.Forall₂ (fun c d => (parts c).mapM f = some (results d)) cs ds) :
    (cs.flatMap parts).mapM f = some (ds.flatMap results) := by
  induction h with
  | nil => rfl
  | cons first _ ih =>
      rw [List.flatMap_cons, List.flatMap_cons, mapM_some_iff]
      exact List.rel_append (mapM_some_iff.mp first) (mapM_some_iff.mp ih)

theorem sublist_of_places {items found : List β} {places : List Nat} {n : Nat}
    (ascending : places.Pairwise (· < ·)) (lower : ∀ i ∈ places, n ≤ i)
    (h : places.mapM (fun i => items[i]?) = some found) : found.Sublist (items.drop n) := by
  induction places generalizing n found with
  | nil =>
      obtain rfl := Option.some.inj h
      exact List.nil_sublist _
  | cons i rest ih =>
      obtain ⟨before, later⟩ := List.pairwise_cons.mp ascending
      obtain ⟨first, others, hit, tail, rfl⟩ :=
        List.forall₂_cons_left_iff.mp (mapM_some_iff.mp h)
      have below := ih later before (mapM_some_iff.mpr tail)
      obtain ⟨inside, rfl⟩ := List.getElem?_eq_some_iff.mp hit
      have whole : (items[i] :: items.drop (i + 1)).Sublist (items.drop n) := by
        rw [← List.drop_eq_getElem_cons inside]
        exact List.drop_sublist_drop_left items (lower i List.mem_cons_self)
      exact (below.cons_cons _).trans whole

theorem lookup_of_mem [BEq α] [LawfulBEq α] {table : List (α × β)}
    (distinct : (table.map (·.1)).Nodup) {key : α} {value : β} (mem : (key, value) ∈ table) :
    table.lookup key = some value := by
  induction table with
  | nil => exact absurd mem List.not_mem_nil
  | cons entry rest ih =>
      obtain ⟨first, found⟩ := entry
      simp only [List.map_cons, List.nodup_cons] at distinct
      rcases List.mem_cons.mp mem with same | later
      · obtain ⟨rfl, rfl⟩ := Prod.mk.inj same
        simp
      · have different : (key == first) = false := by
          rw [beq_eq_false_iff_ne]
          rintro rfl
          exact distinct.1 (List.mem_map_of_mem (f := (·.1)) later)
        rw [List.lookup_cons, different]
        exact ih distinct.2 later

end DocumentSummarizer.Library
