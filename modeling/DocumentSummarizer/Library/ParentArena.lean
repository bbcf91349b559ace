import Mathlib.Data.List.Basic

/-! # Trees by parent pointers

Nodes of an arena refer to their parent by index.  When every new node goes
under the last one or one of its ancestors, the descendants of a node are the
run of nodes right after it.
-/

namespace DocumentSummarizer.Library

variable {α : Type*}

/-- From a node over parents to another, or to itself. -/
inductive Climbs (parent : α → Option Nat) (arena : List α) : Nat → Nat → Prop where
  | refl {i : Nat} : Climbs parent arena i i
  | step {i p j : Nat} {a : α} (stored : arena[i]? = some a) (under : parent a = some p)
      (later : Climbs parent arena p j) : Climbs parent arena i j

/-- Every node's parent is the node before it or one of that node's ancestors. -/
def InPreorder (parent : α → Option Nat) (arena : List α) : Prop :=
  ∀ (i : Nat) (a : α) (p : Nat), arena[i]? = some a → parent a = some p →
    p < i ∧ Climbs parent arena (i - 1) p

namespace Climbs

variable {parent : α → Option Nat} {arena other : List α} {i j k : Nat}

theorem trans (first : Climbs parent arena i j) (second : Climbs parent arena j k) :
    Climbs parent arena i k := by
  induction first with
  | refl => exact second
  | step stored under _ ih => exact .step stored under (ih second)

theorem congr (h : Climbs parent arena i j)
    (same : ∀ (n : Nat) (a : α), arena[n]? = some a →
      ∃ b, other[n]? = some b ∧ parent b = parent a) :
    Climbs parent other i j := by
  induction h with
  | refl => exact .refl
  | step stored under _ ih =>
      obtain ⟨b, found, equal⟩ := same _ _ stored
      exact .step found (equal.trans under) ih

theorem eq_of_childless (h : Climbs parent arena i j)
    (childless : ∀ (n : Nat) (a : α), arena[n]? = some a → parent a ≠ some j) : i = j := by
  induction h with
  | refl => rfl
  | step stored under _ ih =>
      obtain rfl := ih childless
      exact absurd under (childless _ _ stored)

theorem append (h : Climbs parent arena i j) (more : List α) :
    Climbs parent (arena ++ more) i j := by
  apply h.congr
  intro n a stored
  have inside := (List.getElem?_eq_some_iff.mp stored).1
  exact ⟨a, by rw [List.getElem?_append_left inside, stored], rfl⟩

theorem le (ordered : InPreorder parent arena) (h : Climbs parent arena i j) : j ≤ i := by
  induction h with
  | refl => exact Nat.le_refl _
  | step stored under _ ih =>
      have := (ordered _ _ _ stored under).1
      omega

theorem between (ordered : InPreorder parent arena) {root : Nat}
    (h : Climbs parent arena i root) (lower : root ≤ j) (upper : j ≤ i) :
    Climbs parent arena j root := by
  induction i with
  | zero =>
      have same : j = 0 := by omega
      exact same ▸ h
  | succ i ih =>
      by_cases last : j = i + 1
      · exact last ▸ h
      · cases h with
        | refl => omega
        | step stored under later =>
            obtain ⟨less, before⟩ := ordered _ _ _ stored under
            exact ih (before.trans later) (by omega)

end Climbs

namespace InPreorder

variable {parent : α → Option Nat} {arena other : List α}

theorem nil : InPreorder parent ([] : List α) := by
  intro i a p stored
  cases stored

theorem push (h : InPreorder parent arena) {a : α}
    (under : ∀ p, parent a = some p → p < arena.length ∧
      Climbs parent arena (arena.length - 1) p) : InPreorder parent (arena ++ [a]) := by
  intro i b p stored own
  rcases Nat.lt_or_ge i arena.length with inside | outside
  · rw [List.getElem?_append_left inside] at stored
    obtain ⟨less, way⟩ := h i b p stored own
    exact ⟨less, way.append _⟩
  · have last : i = arena.length := by
      have := (List.getElem?_eq_some_iff.mp stored).1
      simp only [List.length_append, List.length_singleton] at this
      omega
    subst last
    rw [List.getElem?_append_right (Nat.le_refl _), Nat.sub_self] at stored
    obtain rfl := Option.some.inj stored
    obtain ⟨less, way⟩ := under p own
    exact ⟨less, way.append _⟩

theorem of_map {β : Type*} {parent : β → Option Nat} {f : α → β}
    (h : InPreorder parent (arena.map f)) : InPreorder (fun a => parent (f a)) arena := by
  have back : ∀ {i j : Nat}, Climbs parent (arena.map f) i j →
      Climbs (fun a => parent (f a)) arena i j := by
    intro i j way
    induction way with
    | refl => exact .refl
    | step stored under _ ih =>
        rw [List.getElem?_map, Option.map_eq_some_iff] at stored
        obtain ⟨a, found, rfl⟩ := stored
        exact .step found under ih
  intro i a p stored under
  obtain ⟨less, way⟩ := h i (f a) p (by rw [List.getElem?_map, stored, Option.map_some]) under
  exact ⟨less, back way⟩

end InPreorder

/-! ## The members of a subtree -/

section Members

variable (parent : α → Option Nat) (arena : List α)

/-- Climbs from a parent until the root is met or no parent is left; `fuel` bounds the way. -/
def climb (root : Nat) : Nat → Option Nat → Option (Option Nat)
  | _, none => some none
  | 0, some _ => none
  | fuel + 1, some n =>
    if n = root then some (some n) else arena[n]?.bind fun a => climb root fuel (parent a)

/-- The run of nodes whose way up meets the root. -/
def collectMembers (root : Nat) : List (α × Nat) → Option (List Nat)
  | [] => some []
  | (a, index) :: rest =>
    (climb parent arena root index (parent a)).bind fun reached =>
      if reached = some root then (collectMembers root rest).map (index :: ·) else some []

/-- The root and the nodes after it, up to the first that is not under it. -/
def members (root : Nat) : Option (List Nat) :=
  (collectMembers parent arena root ((arena.zipIdx).drop (root + 1))).map (root :: ·)

end Members

section Climbing

variable {parent : α → Option Nat} {arena : List α} {root : Nat}

/-- With parents before their children the climb ends, and meets the root exactly from below. -/
theorem climb_spec (ordered : InPreorder parent arena) {fuel : Nat} {start : Option Nat}
    (bounded : ∀ n, start = some n → n < arena.length ∧ n < fuel) :
    ∃ reached, climb parent arena root fuel start = some reached ∧
      (reached = some root ↔ ∃ n, start = some n ∧ Climbs parent arena n root) := by
  induction fuel generalizing start with
  | zero =>
      cases start with
      | none => exact ⟨none, rfl, by simp⟩
      | some n => exact absurd (bounded n rfl).2 (Nat.not_lt_zero n)
  | succ fuel ih =>
      cases start with
      | none => exact ⟨none, rfl, by simp⟩
      | some n =>
          obtain ⟨inside, small⟩ := bounded n rfl
          by_cases same : n = root
          · subst same
            exact ⟨some n, if_pos rfl, by simp [Climbs.refl]⟩
          · have stored := List.getElem?_eq_getElem inside
            obtain ⟨reached, climbed, iff⟩ := @ih (parent arena[n]) (by
              intro p under
              obtain ⟨less, -⟩ := ordered n _ p stored under
              omega)
            refine ⟨reached, ?_, ?_⟩
            · rw [climb, if_neg same, stored]
              exact climbed
            · rw [iff]
              constructor
              · rintro ⟨p, under, way⟩
                exact ⟨n, rfl, .step stored under way⟩
              · rintro ⟨m, found, way⟩
                obtain rfl := Option.some.inj found
                cases way with
                | refl => exact absurd rfl same
                | step stored' under way =>
                    rw [stored] at stored'
                    obtain rfl := Option.some.inj stored'
                    exact ⟨_, under, way⟩

theorem climbs_iff_parent {i : Nat} {a : α} (stored : arena[i]? = some a) (behind : root < i) :
    Climbs parent arena i root ↔ ∃ p, parent a = some p ∧ Climbs parent arena p root := by
  constructor
  · intro way
    cases way with
    | refl => omega
    | step stored' under way =>
        rw [stored] at stored'
        obtain rfl := Option.some.inj stored'
        exact ⟨_, under, way⟩
  · rintro ⟨p, under, way⟩
    exact .step stored under way

/-- From a place behind the root on, as long as no descendant was passed over. -/
theorem collectMembers_spec (ordered : InPreorder parent arena) {first : Nat}
    (behind : root < first) (reached : Climbs parent arena (first - 1) root) :
    ∃ run, collectMembers parent arena root (arena.zipIdx.drop first) = some run ∧
      run = List.range' first run.length ∧
      ∀ i, i ∈ run ↔ first ≤ i ∧ i < arena.length ∧ Climbs parent arena i root := by
  induction more : arena.length - first generalizing first with
  | zero =>
      refine ⟨[], ?_, rfl, ?_⟩
      · rw [List.drop_eq_nil_of_le (by simp; omega)]
        rfl
      · intro i
        simp only [List.not_mem_nil, false_iff]
        rintro ⟨lower, upper, -⟩
        omega
  | succ more ih =>
      have inside : first < arena.length := by omega
      have stored := List.getElem?_eq_getElem inside
      have shape : arena.zipIdx.drop first =
          (arena[first], first) :: arena.zipIdx.drop (first + 1) := by
        rw [List.drop_eq_getElem_cons (by simpa using inside), List.getElem_zipIdx, Nat.zero_add]
      obtain ⟨top, climbed, iff⟩ := @climb_spec _ parent arena root ordered first
        (parent arena[first]) (by
          intro p under
          obtain ⟨less, -⟩ := ordered first _ p stored under
          omega)
      have under := @climbs_iff_parent _ parent _ _ _ _ stored behind
      simp only [shape, collectMembers, climbed, Option.bind_some]
      by_cases met : top = some root
      · have here : Climbs parent arena first root := under.mpr (iff.mp met)
        obtain ⟨run, collected, contiguous, mem⟩ :=
          @ih (first + 1) (by omega) (by simpa using here) (by omega)
        refine ⟨first :: run, ?_, ?_, ?_⟩
        · rw [if_pos met, collected]
          rfl
        · rw [List.length_cons, List.range'_succ, ← contiguous]
        · intro i
          rw [List.mem_cons, mem]
          constructor
          · rintro (rfl | ⟨lower, upper, way⟩)
            · exact ⟨Nat.le_refl _, inside, here⟩
            · exact ⟨by omega, upper, way⟩
          · rintro ⟨lower, upper, way⟩
            rcases Nat.eq_or_lt_of_le lower with rfl | later
            · exact .inl rfl
            · exact .inr ⟨later, upper, way⟩
      · refine ⟨[], if_neg met, rfl, ?_⟩
        intro i
        simp only [List.not_mem_nil, false_iff]
        rintro ⟨lower, upper, way⟩
        -- a descendant further on would make this node one too
        have here := way.between ordered (Nat.le_of_lt behind) lower
        exact met (iff.mpr (under.mp here))

/-- The members are the root and all its descendants, in one run. -/
theorem members_spec (ordered : InPreorder parent arena) (inside : root < arena.length) :
    ∃ nodes, members parent arena root = some nodes ∧
      nodes = List.range' root nodes.length ∧
      ∀ i, i ∈ nodes ↔ i < arena.length ∧ Climbs parent arena i root := by
  obtain ⟨run, collected, contiguous, mem⟩ := @collectMembers_spec _ parent arena root ordered
    (root + 1) (Nat.lt_succ_self root) .refl
  refine ⟨root :: run, ?_, ?_, ?_⟩
  · rw [members, collected]
    rfl
  · rw [List.length_cons, List.range'_succ, ← contiguous]
  · intro i
    rw [List.mem_cons, mem]
    constructor
    · rintro (rfl | ⟨-, upper, way⟩)
      · exact ⟨inside, .refl⟩
      · exact ⟨upper, way⟩
    · rintro ⟨upper, way⟩
      rcases Nat.eq_or_lt_of_le (way.le ordered) with rfl | later
      · exact .inl rfl
      · exact .inr ⟨later, upper, way⟩

end Climbing

end DocumentSummarizer.Library
