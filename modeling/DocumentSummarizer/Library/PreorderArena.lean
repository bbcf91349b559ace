import Mathlib.Data.List.Basic

/-! # Trees in an arena

Nodes refer to their children by index.  The index of a node is its place in
the preorder of the tree, and stays so when a node is added under the spine of
last children.
-/

namespace DocumentSummarizer.Library

universe u

variable {α : Type u}

/-- The subtrees at `ids`, in order, cover the indices from `i` to `k`, each before its
children. -/
inductive PreorderFrom (kids : α → List Nat) (arena : List α) : List Nat → Nat → Nat → Prop where
  | nil {i} : PreorderFrom kids arena [] i i
  | cons {i j k rest} {a : α} (stored : arena[i]? = some a)
      (below : PreorderFrom kids arena (kids a) (i + 1) j)
      (later : PreorderFrom kids arena rest j k) : PreorderFrom kids arena (i :: rest) i k

/-- From `i` over `path` to `p`, each node the last child of the one before. -/
inductive Spine (kids : α → List Nat) (arena : List α) : Nat → List Nat → Nat → Prop where
  | nil {i} : Spine kids arena i [] i
  | cons {i c p rest before} {a : α} (stored : arena[i]? = some a)
      (last : kids a = before ++ [c]) (after : i < c) (later : Spine kids arena c rest p) :
      Spine kids arena i (c :: rest) p

namespace Spine

variable {kids : α → List Nat} {arena other : List α} {i p : Nat} {path : List Nat}

theorem le (h : Spine kids arena i path p) : i ≤ p := by
  induction h with
  | nil => exact Nat.le_refl _
  | cons _ _ after _ ih => omega

theorem congr (h : Spine kids arena i path p)
    (same : ∀ (n : Nat) a, arena[n]? = some a → ∃ b, other[n]? = some b ∧ kids b = kids a) :
    Spine kids other i path p := by
  induction h with
  | nil => exact .nil
  | cons stored last after _ ih =>
      obtain ⟨b, found, equal⟩ := same _ _ stored
      exact .cons found (equal.trans last) after ih

/-- The spine down to one of its nodes. -/
theorem take {position c : Nat} (h : Spine kids arena i path p)
    (at_position : path[position]? = some c) :
    Spine kids arena i (path.take (position + 1)) c := by
  induction h generalizing position with
  | nil => cases at_position
  | cons stored last after _ ih =>
      cases position with
      | zero =>
          obtain rfl := Option.some.inj at_position
          exact .cons stored last after .nil
      | succ n => exact .cons stored last after (ih at_position)

/-- The spine that a new node under `p` lengthens. -/
theorem push {add : α → α} {new a : α} (h : Spine kids arena i path p)
    (stored : arena[p]? = some a) (added : kids (add a) = kids a ++ [arena.length]) :
    Spine kids (arena.modify p add ++ [new]) i (path ++ [arena.length]) arena.length := by
  have inside := (List.getElem?_eq_some_iff.mp stored).1
  induction h with
  | nil =>
      refine .cons (a := add a) ?_ added inside .nil
      rw [List.getElem?_append_left (by simpa using inside), List.getElem?_modify, stored]
      simp
  | @cons i c p rest before b at_i last after later ih =>
      have reached := later.le
      have inside_i := (List.getElem?_eq_some_iff.mp at_i).1
      refine .cons (a := b) ?_ last after (ih stored inside)
      rw [List.getElem?_append_left (by simpa using inside_i), List.getElem?_modify, at_i]
      have different : p ≠ i := by omega
      simp [different]

end Spine

namespace PreorderFrom

variable {kids : α → List Nat} {arena other : List α} {ids ids' : List Nat} {i j k : Nat}

theorem le (h : PreorderFrom kids arena ids i k) : i ≤ k := by
  induction h with
  | nil => exact Nat.le_refl _
  | cons _ _ _ below later => omega

theorem increasing (h : PreorderFrom kids arena ids i k) :
    ids.Pairwise (· < ·) ∧ ∀ id ∈ ids, i ≤ id := by
  induction h with
  | nil => exact ⟨List.Pairwise.nil, nofun⟩
  | @cons i j k rest a stored below later _ ih =>
      have lower := below.le
      constructor
      · apply List.pairwise_cons.mpr
        constructor
        · intro id mem
          have after := ih.2 id mem
          omega
        · exact ih.1
      · intro id mem
        rcases List.mem_cons.mp mem with rfl | inside
        · exact Nat.le_refl _
        · have after := ih.2 id inside
          omega

theorem children_nodup (h : PreorderFrom kids arena ids i k) {n : Nat} {a : α} (lower : i ≤ n)
    (upper : n < k) (stored : arena[n]? = some a) : (kids a).Nodup := by
  induction h with
  | nil => omega
  | @cons i j k rest b at_i below later ihBelow ihLater =>
      rcases Nat.lt_trichotomy i n with after | rfl | before
      · by_cases inside : n < j
        · exact ihBelow after inside
        · exact ihLater (Nat.not_lt.mp inside) upper
      · obtain rfl := Option.some.inj (at_i.symm.trans stored)
        exact below.increasing.1.imp Nat.ne_of_lt
      · omega

/-- The order depends on the covered nodes only. -/
theorem congr (h : PreorderFrom kids arena ids i k)
    (same : ∀ n, i ≤ n → n < k → ∀ a, arena[n]? = some a →
      ∃ b, other[n]? = some b ∧ kids b = kids a) :
    PreorderFrom kids other ids i k := by
  induction h with
  | nil => exact .nil
  | @cons i j k rest a stored below later belowOther laterOther =>
      have middle := below.le
      have upper := later.le
      obtain ⟨b, found, equal⟩ := same i (Nat.le_refl i) (by omega) a stored
      refine .cons found (equal ▸ belowOther ?_) (laterOther ?_)
      · intro n lower bound
        exact same n (by omega) (by omega)
      · intro n lower bound
        exact same n (by omega) (by omega)

theorem append (front : PreorderFrom kids arena ids i j)
    (back : PreorderFrom kids arena ids' j k) : PreorderFrom kids arena (ids ++ ids') i k := by
  induction front with
  | nil => exact back
  | cons stored below _ _ later => exact .cons stored below (later back)

theorem split (h : PreorderFrom kids arena (ids ++ ids') i k) :
    ∃ j, PreorderFrom kids arena ids i j ∧ PreorderFrom kids arena ids' j k := by
  induction ids generalizing i with
  | nil => exact ⟨i, .nil, h⟩
  | cons id rest ih =>
      cases h with
      | cons stored below later =>
          obtain ⟨j, front, back⟩ := ih later
          exact ⟨j, .cons stored below front, back⟩

/-- A new last node under the end of a spine comes last in the preorder. -/
theorem push_under {add : α → α} {new : α} {path : List Nat} {p : Nat}
    (h : PreorderFrom kids arena [i] i arena.length) (spine : Spine kids arena i path p)
    (added : ∀ a, kids (add a) = kids a ++ [arena.length]) (leaf : kids new = []) :
    PreorderFrom kids (arena.modify p add ++ [new]) [i] i (arena.length + 1) := by
  have stored_new : (arena.modify p add ++ [new])[arena.length]? = some new := by
    simp
  have elsewhere : ∀ n a, n ≠ p → arena[n]? = some a →
      (arena.modify p add ++ [new])[n]? = some a := by
    intro n a different stored
    have inside := (List.getElem?_eq_some_iff.mp stored).1
    rw [List.getElem?_append_left (by simpa using inside), List.getElem?_modify, stored]
    simp [Ne.symm different]
  have last : PreorderFrom kids (arena.modify p add ++ [new]) [arena.length] arena.length
      (arena.length + 1) := by
    refine .cons stored_new ?_ .nil
    rw [leaf]
    exact .nil
  induction spine with
  | @nil i =>
      cases h with
      | @cons _ j _ _ a stored below later =>
          cases later with
          | nil =>
              have inside := (List.getElem?_eq_some_iff.mp stored).1
              refine .cons (a := add a) ?_ ?_ .nil
              · rw [List.getElem?_append_left (by simpa using inside), List.getElem?_modify, stored]
                simp
              · rw [added]
                refine append (below.congr ?_) last
                intro n lower _ b found
                exact ⟨b, elsewhere n b (by omega) found, rfl⟩
  | @cons i c p rest before a stored lastChild after later ih =>
      cases h with
      | @cons _ j _ _ b stored' below after' =>
          cases after' with
          | nil =>
              obtain rfl := Option.some.inj (stored.symm.trans stored')
              rw [lastChild] at below
              obtain ⟨m, front, back⟩ := below.split
              have start : m = c := by
                cases back with
                | cons => rfl
              subst start
              have deeper := ih back stored_new elsewhere last
              have reached := later.le
              refine .cons (elsewhere i a (by omega) stored) ?_ .nil
              rw [lastChild]
              refine append (front.congr ?_) deeper
              intro n lower bound d found
              exact ⟨d, elsewhere n d (by omega) found, rfl⟩

end PreorderFrom

/-! ## Slices and changes of an arena -/

/-- The nodes with an index from `i` up to `k`. -/
def slice (arena : List α) (i k : Nat) : List α :=
  (arena.drop i).take (k - i)

theorem slice_self (arena : List α) (i : Nat) : slice arena i i = [] := by
  simp [slice]

theorem slice_all (arena : List α) : slice arena 0 arena.length = arena := by
  simp [slice]

theorem slice_append {arena : List α} {i j k : Nat} (lower : i ≤ j) (upper : j ≤ k) :
    slice arena i k = slice arena i j ++ slice arena j k := by
  have total : k - i = (j - i) + (k - j) := by omega
  have start : i + (j - i) = j := by omega
  rw [slice, slice, slice, total, List.take_add, List.drop_drop, start]

theorem slice_cons {arena : List α} {i k : Nat} {a : α} (stored : arena[i]? = some a)
    (upper : i + 1 ≤ k) : slice arena i k = a :: slice arena (i + 1) k := by
  have inside := (List.getElem?_eq_some_iff.mp stored).1
  have value := (List.getElem?_eq_some_iff.mp stored).2
  have count : k - i = (k - (i + 1)) + 1 := by omega
  rw [slice, slice, List.drop_eq_getElem_cons inside, count, List.take_succ_cons, value]

theorem modify_append_left {arena : List α} {p : Nat} (inside : p < arena.length) (new : α)
    (f : α → α) : (arena ++ [new]).modify p f = arena.modify p f ++ [new] := by
  induction arena generalizing p with
  | nil => simp at inside
  | cons a arena ih =>
      cases p with
      | zero => rfl
      | succ p =>
          have shorter : p < arena.length := by simpa using inside
          simp [List.modify_succ_cons, ih shorter]

theorem modify_last (front : List α) (a : α) (f : α → α) :
    (front ++ [a]).modify front.length f = front ++ [f a] := by
  induction front with
  | nil => rfl
  | cons b front ih => simp [List.modify_succ_cons, ih]

theorem map_modify {β : Type u} {g : α → β} {f : α → α} (same : ∀ a, g (f a) = g a)
    (arena : List α) (p : Nat) : (arena.modify p f).map g = arena.map g := by
  induction arena generalizing p with
  | nil => cases p <;> rfl
  | cons a arena ih =>
      cases p with
      | zero => simp [List.modify_zero_cons, same]
      | succ p => simp [List.modify_succ_cons, ih]

end DocumentSummarizer.Library
