import DocumentSummarizer.Pipeline.ClauseCover

/-! # Nested clauses

Every clause goes below the innermost clause that is still open, so the clauses
are a forest in preorder, with numbers that grow by components.
-/

namespace DocumentSummarizer.Pipeline

open Library Furniture

/-- Where a clause stands: what later lines cannot change. -/
structure Frame where
  parent : Option Nat
  number : Option (List (List Char))
  article : Option Nat
  opening : Bool

def SourceClause.frame (clause : SourceClause) : Frame :=
  ⟨clause.parent, clause.number, clause.article, clause.opening⟩

/-- The frame of an article, or of a number that the given one refines. -/
def Governs (above : Frame) (number : List (List Char)) : Prop :=
  above.article.isSome = true ∨
    ∃ outer, above.number = some outer ∧ strictChild number outer = true

/-- A forest in preorder whose parents govern their children. -/
structure Nested (clauses : List Frame) : Prop where
  preorder : InPreorder (·.parent) clauses
  governed : ∀ (i : Nat) (clause : Frame) (p : Nat), clauses[i]? = some clause →
    clause.parent = some p → ∃ above number, clauses[p]? = some above ∧
      clause.number = some number ∧ Governs above number
  /-- Only the first clause is an opening, and it governs nothing. -/
  opened : ∀ (i : Nat) (clause : Frame), clauses[i]? = some clause → clause.opening = true →
    i = 0 ∧ clause.number = none ∧ clause.article = none

/-- The open clauses: each below the next, the innermost on the way up from the last clause. -/
structure OpenChain (clauses : List Frame) (stack : List Nat) : Prop where
  linked : ∀ (index : Nat) (under front : List Nat), stack = front ++ index :: under →
    ∃ clause, clauses[index]? = some clause ∧ clause.parent = under.head?
  reached : ∀ index, stack.head? = some index → index < clauses.length ∧
    Climbs (·.parent) clauses (clauses.length - 1) index

section Chains

variable {clauses : List Frame} {stack : List Nat} {index : Nat}

theorem Nested.nil : Nested [] where
  preorder := .nil
  governed := by
    intro i clause p stored
    cases stored
  opened := by
    intro i clause stored
    cases stored

theorem OpenChain.nil (clauses : List Frame) : OpenChain clauses [] where
  linked := by
    intro index under front same
    have := congrArg List.length same
    simp at this
  reached := by
    intro index found
    cases found

theorem OpenChain.pop (h : OpenChain clauses (index :: stack)) : OpenChain clauses stack where
  linked := by
    intro other under front same
    exact h.linked other under (index :: front) (by rw [same]; rfl)
  reached := by
    intro parent found
    obtain ⟨inside, way⟩ := h.reached index rfl
    obtain ⟨clause, stored, under⟩ := h.linked index stack [] rfl
    obtain ⟨above, stored'⟩ : ∃ above, clauses[parent]? = some above := by
      cases stack with
      | nil => cases found
      | cons first rest =>
          obtain rfl := Option.some.inj found
          obtain ⟨above, stored', -⟩ := h.linked first rest [index] rfl
          exact ⟨above, stored'⟩
    refine ⟨(List.getElem?_eq_some_iff.mp stored').1, way.trans ?_⟩
    exact .step stored (under.trans found) .refl

/-- A clause may be put below the innermost open one when that one governs it. -/
theorem Nested.push (h : Nested clauses) (chain : OpenChain clauses stack) {clause : Frame}
    (below : clause.parent = stack.head?)
    (governed : ∀ p, stack.head? = some p → ∃ above number, clauses[p]? = some above ∧
      clause.number = some number ∧ Governs above number)
    (first : clause.opening = true →
      clauses = [] ∧ clause.number = none ∧ clause.article = none) :
    Nested (clauses ++ [clause]) ∧ OpenChain (clauses ++ [clause]) (clauses.length :: stack) := by
  have last : (clauses ++ [clause])[clauses.length]? = some clause := by simp
  have keep : ∀ (i : Nat) (old : Frame), clauses[i]? = some old →
      (clauses ++ [clause])[i]? = some old := by
    intro i old stored
    rw [List.getElem?_append_left (List.getElem?_eq_some_iff.mp stored).1, stored]
  have cases_ : ∀ (i : Nat) (other : Frame), (clauses ++ [clause])[i]? = some other →
      clauses[i]? = some other ∨ i = clauses.length ∧ other = clause := by
    intro i other stored
    rcases Nat.lt_or_ge i clauses.length with inside | outside
    · rw [List.getElem?_append_left inside] at stored
      exact .inl stored
    · have same : i = clauses.length := by
        have := (List.getElem?_eq_some_iff.mp stored).1
        simp only [List.length_append, List.length_singleton] at this
        omega
      subst same
      rw [last] at stored
      exact .inr ⟨rfl, (Option.some.inj stored).symm⟩
  refine ⟨⟨?_, ?_, ?_⟩, ⟨?_, ?_⟩⟩
  · apply h.preorder.push
    intro p under
    exact chain.reached p (below.symm.trans under)
  · intro i other p stored under
    rcases cases_ i other stored with old | ⟨rfl, rfl⟩
    · obtain ⟨above, number, stored', own, governs⟩ := h.governed i other p old under
      exact ⟨above, number, keep p above stored', own, governs⟩
    · obtain ⟨above, number, stored', own, governs⟩ := governed p (below.symm.trans under)
      exact ⟨above, number, keep p above stored', own, governs⟩
  · intro i other stored opening
    rcases cases_ i other stored with old | ⟨rfl, rfl⟩
    · exact h.opened i other old opening
    · obtain ⟨empty, unnumbered, unarticled⟩ := first opening
      exact ⟨by rw [empty]; rfl, unnumbered, unarticled⟩
  · intro other under front same
    cases front with
    | nil =>
        obtain ⟨rfl, rfl⟩ := List.cons.inj same
        exact ⟨clause, last, below⟩
    | cons first front =>
        obtain ⟨-, rest⟩ := List.cons.inj same
        obtain ⟨old, stored, parent⟩ := chain.linked other under front rest
        exact ⟨old, keep other old stored, parent⟩
  · intro other found
    obtain rfl := Option.some.inj found
    refine ⟨by simp, ?_⟩
    rw [List.length_append, List.length_singleton, Nat.add_sub_cancel]
    exact .refl

theorem Nested.opening_childless (h : Nested clauses) {opening : Frame}
    (stored : clauses[index]? = some opening) (opens : opening.opening = true) {i : Nat}
    {clause : Frame} (below : clauses[i]? = some clause) : clause.parent ≠ some index := by
  intro under
  obtain ⟨above, number, stored', -, governs⟩ := h.governed i clause index below under
  rw [stored] at stored'
  obtain rfl := Option.some.inj stored'
  obtain ⟨-, unnumbered, unarticled⟩ := h.opened index opening stored opens
  rcases governs with article | ⟨outer, own, -⟩
  · rw [unarticled] at article
    cases article
  · rw [unnumbered] at own
    cases own

end Chains

/-! ## Numbers -/

section Numbers

variable {number outer : List (List Char)}

theorem strictChild_iff :
    strictChild number outer = true ↔ outer.length < number.length ∧ outer <+: number := by
  simp [strictChild]

theorem strictChild_dropLast (long : 1 < number.length) :
    strictChild number number.dropLast = true := by
  rw [strictChild_iff]
  refine ⟨?_, List.dropLast_prefix number⟩
  rw [List.length_dropLast]
  omega

/-- Above a number and not its own parent number is above the parent number. -/
theorem strictChild_of_ne_dropLast (h : strictChild number outer = true)
    (different : outer ≠ number.dropLast) : strictChild number.dropLast outer = true := by
  rw [strictChild_iff] at h ⊢
  obtain ⟨shorter, starts⟩ := h
  have within : outer <+: number.dropLast := by
    apply List.prefix_of_prefix_length_le starts (List.dropLast_prefix number)
    rw [List.length_dropLast]
    omega
  refine ⟨?_, within⟩
  rcases Nat.lt_or_ge outer.length number.dropLast.length with less | le
  · exact less
  · exact absurd (within.eq_of_length_le le) different

end Numbers

end DocumentSummarizer.Pipeline
