import Mathlib.Data.List.Nodup
import DocumentSummarizer.Library.PreorderArena
import DocumentSummarizer.Pipeline.Identities

/-! # The outline as a tree

Every block goes to the last node of the arena, and every new node under the
spine of open headings: the arena is the preorder of the tree.
-/

namespace DocumentSummarizer.Pipeline

open Library

/-! ## Blocks by identity -/

theorem find?_by_key {α : Type} {key : α → String} {as : List α} {a : α}
    (unique : (as.map key).Nodup) (mem : a ∈ as) :
    as.find? (fun other => key other == key a) = some a := by
  induction as with
  | nil => exact absurd mem List.not_mem_nil
  | cons first rest ih =>
      simp only [List.map_cons, List.nodup_cons] at unique
      rcases List.mem_cons.mp mem with rfl | later
      · simp
      · have different : key first ≠ key a := by
          intro same
          exact unique.1 (same ▸ List.mem_map_of_mem later)
        simp [different, ih unique.2 later]

theorem blockLookup_of_mem {all : List NormalizedBlock} {block : NormalizedBlock}
    (unique : (all.map (·.blockId)).Nodup) (mem : block ∈ all) :
    blockLookup all block.blockId = some block := by
  refine find?_by_key ?_ (List.mem_reverse.mpr mem)
  rw [List.map_reverse]
  exact List.nodup_reverse.mpr unique

/-! ## Nodes and edges -/

/-- The draft holds these blocks. -/
structure Holds (all : List NormalizedBlock) (draft : DraftNode) (own : List NormalizedBlock) :
    Prop where
  blockIds : draft.blockIds = own.map (·.blockId)
  sourceSpans : draft.sourceSpans = own.map (·.source)
  known : ∀ block ∈ own, block ∈ all

/-- A section or subsection with the numbering of its first block. -/
structure IsHeading (platform : TextPlatform) (all : List NormalizedBlock) (draft : DraftNode)
    (numbering : List Nat) : Prop where
  own : ∃ first rest, Holds all draft (first :: rest) ∧
    detectNumberedHeading platform first.text = some ⟨numbering, draft.title⟩
  level : draft.level = numbering.length
  positive : 1 ≤ numbering.length
  depth : numbering.length ≤ maxHeadingDepth
  kind : draft.kind = if draft.level = 1 then .section else .subsection

structure IsUnstructured (all : List NormalizedBlock) (draft : DraftNode) : Prop where
  own : ∃ first rest, Holds all draft (first :: rest)
  kind : draft.kind = .unstructured
  title : draft.title = none
  level : draft.level = 1

inductive Edge (platform : TextPlatform) (all : List NormalizedBlock) (parent child : DraftNode) :
    Prop where
  | unstructured (root : parent.kind = .document) (level : parent.level = 0)
      (child : IsUnstructured all child)
  | «section» (root : parent.kind = .document) (level : parent.level = 0) (numbering : List Nat)
      (top : numbering.length = 1) (child : IsHeading platform all child numbering)
  | subsection (numbering : List Nat) (deep : 2 ≤ numbering.length)
      (child : IsHeading platform all child numbering)
      (parent : IsHeading platform all parent numbering.dropLast)

/-- A change of a node that leaves what the edges say. -/
structure Keeps (platform : TextPlatform) (all : List NormalizedBlock)
    (change : DraftNode → DraftNode) : Prop where
  kind : ∀ draft, (change draft).kind = draft.kind
  level : ∀ draft, (change draft).level = draft.level
  heading : ∀ draft numbering, IsHeading platform all draft numbering →
    IsHeading platform all (change draft) numbering
  unstructured : ∀ draft, IsUnstructured all draft → IsUnstructured all (change draft)

section Keeping

variable {platform : TextPlatform} {all : List NormalizedBlock}

theorem keeps_id : Keeps platform all id :=
  ⟨fun _ => rfl, fun _ => rfl, fun _ _ h => h, fun _ h => h⟩

theorem keeps_pushChild (nodeId : Nat) : Keeps platform all (·.pushChild nodeId) where
  kind _ := rfl
  level _ := rfl
  heading draft numbering h := by
    obtain ⟨first, rest, holds, detected⟩ := h.own
    exact ⟨⟨first, rest, ⟨holds.blockIds, holds.sourceSpans, holds.known⟩, detected⟩, h.level,
      h.positive, h.depth, h.kind⟩
  unstructured draft h := by
    obtain ⟨first, rest, holds⟩ := h.own
    exact ⟨⟨first, rest, ⟨holds.blockIds, holds.sourceSpans, holds.known⟩⟩, h.kind, h.title,
      h.level⟩

theorem Holds.pushBlock {draft : DraftNode} {own : List NormalizedBlock} {block : NormalizedBlock}
    (h : Holds all draft own) (mem : block ∈ all) :
    Holds all (draft.pushBlock block) (own ++ [block]) where
  blockIds := by simp [DraftNode.pushBlock, h.blockIds]
  sourceSpans := by simp [DraftNode.pushBlock, h.sourceSpans]
  known other known := by
    rcases List.mem_append.mp known with old | new
    · exact h.known other old
    · obtain rfl := List.mem_singleton.mp new
      exact mem

theorem keeps_pushBlock {block : NormalizedBlock} (mem : block ∈ all) :
    Keeps platform all (·.pushBlock block) where
  kind _ := rfl
  level _ := rfl
  heading draft numbering h := by
    obtain ⟨first, rest, holds, detected⟩ := h.own
    exact ⟨⟨first, rest ++ [block], holds.pushBlock mem, detected⟩, h.level, h.positive, h.depth,
      h.kind⟩
  unstructured draft h := by
    obtain ⟨first, rest, holds⟩ := h.own
    exact ⟨⟨first, rest ++ [block], holds.pushBlock mem⟩, h.kind, h.title, h.level⟩

theorem Edge.change {parent child : DraftNode} {f g : DraftNode → DraftNode}
    (h : Edge platform all parent child) (ofParent : Keeps platform all f)
    (ofChild : Keeps platform all g) : Edge platform all (f parent) (g child) := by
  cases h with
  | unstructured root level child =>
      exact .unstructured ((ofParent.kind _).trans root) ((ofParent.level _).trans level)
        (ofChild.unstructured _ child)
  | «section» root level numbering top child =>
      exact .section ((ofParent.kind _).trans root) ((ofParent.level _).trans level) numbering top
        (ofChild.heading _ _ child)
  | subsection numbering deep child parent =>
      exact .subsection numbering deep (ofChild.heading _ _ child) (ofParent.heading _ _ parent)

end Keeping

/-- The numbering that validation reads back from the first block of a heading. -/
def numberingOf (platform : TextPlatform) (all : List NormalizedBlock) (draft : DraftNode) :
    Option (List Nat) :=
  if draft.kind = .section ∨ draft.kind = .subsection then do
    let blockId ← draft.blockIds.head?
    let block ← blockLookup all blockId
    let signal ← detectNumberedHeading platform block.text
    return signal.numbering
  else
    none

section Reading

variable {platform : TextPlatform} {all : List NormalizedBlock} {draft : DraftNode}
  {numbering : List Nat}

theorem IsHeading.is_heading_kind (h : IsHeading platform all draft numbering) :
    draft.kind = .section ∨ draft.kind = .subsection := by
  rw [h.kind]
  split
  · exact .inl rfl
  · exact .inr rfl

theorem IsHeading.numberingOf (h : IsHeading platform all draft numbering)
    (unique : (all.map (·.blockId)).Nodup) :
    numberingOf platform all draft = some numbering := by
  obtain ⟨first, rest, holds, detected⟩ := h.own
  have found := blockLookup_of_mem unique (holds.known first List.mem_cons_self)
  simp [Pipeline.numberingOf, h.is_heading_kind, holds.blockIds, found, detected]

theorem IsUnstructured.numberingOf (h : IsUnstructured all draft) :
    Pipeline.numberingOf platform all draft = none := by
  simp [Pipeline.numberingOf, h.kind]

theorem numberingOf_pushBlock {block : NormalizedBlock} (nonempty : draft.blockIds ≠ []) :
    Pipeline.numberingOf platform all (draft.pushBlock block) =
      Pipeline.numberingOf platform all draft := by
  cases found : draft.blockIds with
  | nil => exact absurd found nonempty
  | cons first rest => simp [Pipeline.numberingOf, DraftNode.pushBlock, found]

end Reading

/-! ## Changing an arena -/

section Changing

variable {platform : TextPlatform} {all : List NormalizedBlock} {arena : List DraftNode}
  {q : Nat} {change : DraftNode → DraftNode}

theorem modify_forward {n : Nat} {draft : DraftNode} (stored : arena[n]? = some draft)
    (keeps : Keeps platform all change) :
    ∃ f, Keeps platform all f ∧ (f = id ∨ f = change) ∧
      (arena.modify q change)[n]? = some (f draft) := by
  rw [List.getElem?_modify, stored]
  by_cases here : q = n
  · exact ⟨change, keeps, .inr rfl, by simp [here]⟩
  · exact ⟨id, keeps_id, .inl rfl, by simp [here]⟩

theorem modify_backward {n : Nat} {draft : DraftNode}
    (stored : (arena.modify q change)[n]? = some draft) (keeps : Keeps platform all change) :
    ∃ old f, arena[n]? = some old ∧ Keeps platform all f ∧ draft = f old ∧
      (f = id ∨ f = change ∧ q = n) := by
  rw [List.getElem?_modify] at stored
  cases found : arena[n]? with
  | none =>
      rw [found] at stored
      cases stored
  | some old =>
      rw [found] at stored
      by_cases here : q = n
      · simp only [here, if_true, Option.map_eq_map, Option.map_some, Option.some.injEq] at stored
        exact ⟨old, change, rfl, keeps, stored.symm, .inr ⟨rfl, here⟩⟩
      · simp only [here, if_false, Option.map_eq_map, Option.map_some, Option.some.injEq] at stored
        exact ⟨old, id, rfl, keeps_id, stored.symm, .inl rfl⟩

/-- Every child of a stored node is stored and fits its parent. -/
def EdgesHold (platform : TextPlatform) (all : List NormalizedBlock) (arena : List DraftNode) :
    Prop :=
  ∀ (i : Nat) parent, arena[i]? = some parent → ∀ c ∈ parent.children,
    ∃ child, arena[c]? = some child ∧ Edge platform all parent child

theorem EdgesHold.modify (h : EdgesHold platform all arena) (keeps : Keeps platform all change)
    (kids : ∀ draft, (change draft).children = draft.children) :
    EdgesHold platform all (arena.modify q change) := by
  intro i parent stored c mem
  obtain ⟨old, f, at_old, keepsParent, rfl, which⟩ := modify_backward stored keeps
  have same : (f old).children = old.children := by
    rcases which with rfl | ⟨rfl, -⟩
    · rfl
    · exact kids old
  rw [same] at mem
  obtain ⟨child, childStored, edge⟩ := h i old at_old c mem
  obtain ⟨g, keepsChild, -, found⟩ := @modify_forward platform all arena q change c child
    childStored keeps
  exact ⟨g child, found, edge.change keepsParent keepsChild⟩

theorem EdgesHold.grow {parent new : DraftNode} (h : EdgesHold platform all arena)
    (stored : arena[q]? = some parent) (edge : Edge platform all parent new)
    (leaf : new.children = []) :
    EdgesHold platform all (arena.modify q (·.pushChild arena.length) ++ [new]) := by
  intro i p at_i c mem
  by_cases old : i < arena.length
  · rw [List.getElem?_append_left (by simpa using old)] at at_i
    obtain ⟨before, f, at_before, keepsParent, rfl, which⟩ :=
      modify_backward at_i (keeps_pushChild arena.length)
    have known : c ∈ before.children ∨ c = arena.length ∧ q = i ∧
        f = (·.pushChild arena.length) := by
      rcases which with rfl | ⟨rfl, here⟩
      · exact .inl mem
      · rcases List.mem_append.mp mem with earlier | added
        · exact .inl earlier
        · exact .inr ⟨List.mem_singleton.mp added, here, rfl⟩
    rcases known with earlier | ⟨rfl, rfl, rfl⟩
    · obtain ⟨child, childStored, oldEdge⟩ := h i before at_before c earlier
      obtain ⟨g, keepsChild, -, found⟩ := @modify_forward platform all arena q
        (·.pushChild arena.length) c child childStored (keeps_pushChild arena.length)
      refine ⟨g child, ?_, oldEdge.change keepsParent keepsChild⟩
      have inside := (List.getElem?_eq_some_iff.mp childStored).1
      rw [List.getElem?_append_left (by simpa using inside)]
      exact found
    · obtain rfl := Option.some.inj (stored.symm.trans at_before)
      exact ⟨new, by simp, edge.change keepsParent keeps_id⟩
  · by_cases here : i = arena.length
    · subst here
      have isNew : new = p := by simpa using at_i
      rw [← isNew, leaf] at mem
      exact absurd mem List.not_mem_nil
    · have outside : (arena.modify q (·.pushChild arena.length) ++ [new])[i]? = none := by
        rw [List.getElem?_eq_none_iff]
        simp
        omega
      rw [outside] at at_i
      cases at_i

end Changing

/-! ## The invariant of the loop -/

/-- The last node takes the next block: the innermost open heading, or the unstructured node
that no heading has ended. -/
inductive LastOpen (all : List NormalizedBlock) (arena : List DraftNode) :
    List ActiveHeading → Prop where
  | root (alone : arena = [DraftNode.document]) : LastOpen all arena []
  | unstructured (draft : DraftNode) (child : IsUnstructured all draft)
      (pair : arena = [DraftNode.document.pushChild 1, draft]) : LastOpen all arena []
  | heading (outer : List ActiveHeading) (active : ActiveHeading)
      (last : active.nodeId + 1 = arena.length) : LastOpen all arena (outer ++ [active])

/-- What holds of the outline after `placed`. -/
structure Outline.Valid (platform : TextPlatform) (all placed : List NormalizedBlock)
    (outline : Outline) : Prop where
  root : ∃ kids, outline.arena[0]? = some ⟨.document, none, 0, [], [], kids⟩
  order : PreorderFrom DraftNode.children outline.arena [0] 0 outline.arena.length
  edges : EdgesHold platform all outline.arena
  spine : ∃ p, Spine DraftNode.children outline.arena 0
    (outline.headingStack.map (·.nodeId)) p
  active : ∀ heading ∈ outline.headingStack, ∃ draft,
    outline.arena[heading.nodeId]? = some draft ∧
      IsHeading platform all draft heading.numbering
  lastOpen : LastOpen all outline.arena outline.headingStack
  blocks : outline.arena.flatMap (·.blockIds) = placed.map (·.blockId)
  numberings : outline.arena.filterMap (numberingOf platform all) = outline.seenNumbering.reverse
  distinct : outline.seenNumbering.Nodup
  size : outline.arena.length ≤ placed.length + 1

section Placing

variable {platform : TextPlatform} {all placed : List NormalizedBlock} {outline : Outline}
  {block : NormalizedBlock}

theorem Outline.valid_empty : Outline.Valid platform all [] Outline.empty where
  root := ⟨[], rfl⟩
  order := .cons rfl .nil .nil
  edges := by
    intro i parent stored c mem
    cases i with
    | zero =>
        obtain rfl := Option.some.inj stored
        exact absurd mem List.not_mem_nil
    | succ i => cases stored
  spine := ⟨0, .nil⟩
  active := fun _ mem => absurd mem List.not_mem_nil
  lastOpen := .root rfl
  blocks := rfl
  numberings := rfl
  distinct := List.nodup_nil
  size := Nat.le_refl _

theorem Outline.Valid.pushBlock {front : List DraftNode} {draft : DraftNode}
    (valid : Outline.Valid platform all placed outline) (mem : block ∈ all)
    (split : outline.arena = front ++ [draft]) (nonempty : draft.blockIds ≠ [])
    (nonroot : front ≠ []) :
    Outline.Valid platform all (placed ++ [block])
      { outline with arena := outline.arena.modify front.length (·.pushBlock block) } := by
  have keeps : Keeps platform all (·.pushBlock block) := keeps_pushBlock mem
  have kids : ∀ d : DraftNode, (d.pushBlock block).children = d.children := fun _ => rfl
  have changed : outline.arena.modify front.length (·.pushBlock block) =
      front ++ [draft.pushBlock block] := by
    rw [split]
    exact modify_last front draft _
  have same_kids : ∀ (n : Nat) d, outline.arena[n]? = some d →
      ∃ e, (outline.arena.modify front.length (·.pushBlock block))[n]? = some e ∧
        e.children = d.children := by
    intro n d stored
    obtain ⟨f, -, which, found⟩ := @modify_forward platform all outline.arena front.length
      (·.pushBlock block) n d stored keeps
    refine ⟨f d, found, ?_⟩
    rcases which with rfl | rfl <;> rfl
  refine ⟨?_, ?_, valid.edges.modify keeps kids, ?_, ?_, ?_, ?_, ?_, valid.distinct, ?_⟩
  · obtain ⟨children, stored⟩ := valid.root
    refine ⟨children, ?_⟩
    rw [List.getElem?_modify, stored]
    have other : front.length ≠ 0 := by simpa using nonroot
    simp [other]
  · have order := valid.order.congr fun n _ _ d stored => same_kids n d stored
    simpa using order
  · obtain ⟨p, spine⟩ := valid.spine
    exact ⟨p, spine.congr same_kids⟩
  · intro heading active
    obtain ⟨d, stored, isHeading⟩ := valid.active heading active
    obtain ⟨f, keepsOne, -, found⟩ := @modify_forward platform all outline.arena front.length
      (·.pushBlock block) _ d stored keeps
    exact ⟨f d, found, keepsOne.heading _ _ isHeading⟩
  · have lastOpen := valid.lastOpen
    show LastOpen all (outline.arena.modify front.length (·.pushBlock block)) outline.headingStack
    generalize outline.headingStack = stack at lastOpen ⊢
    cases lastOpen with
    | root alone =>
        rw [alone] at split
        cases front with
        | nil => exact absurd rfl nonroot
        | cons a front => cases front <;> cases split
    | unstructured other child pair =>
        rw [pair] at split
        cases front with
        | nil => exact absurd rfl nonroot
        | cons a front =>
            cases front with
            | nil =>
                cases split
                refine .unstructured (draft.pushBlock block) (keeps.unstructured _ child) ?_
                rw [changed]
                rfl
            | cons b front => cases front <;> cases split
    | heading outer active last => exact .heading outer active (by simpa using last)
  · show (outline.arena.modify front.length (·.pushBlock block)).flatMap (·.blockIds) = _
    rw [changed, List.map_append, ← valid.blocks, split]
    simp [DraftNode.pushBlock]
  · show (outline.arena.modify front.length (·.pushBlock block)).filterMap _ = _
    rw [changed, ← valid.numberings, split, List.filterMap_append, List.filterMap_append]
    simp only [List.filterMap_cons, numberingOf_pushBlock nonempty, List.filterMap_nil]
  · have bound := valid.size
    simp only [List.length_modify, List.length_append, List.length_singleton]
    omega

/-- A new node under the end of the spine `path`. -/
theorem Outline.Valid.grow {path : List Nat} {q : Nat} {parent new : DraftNode}
    {stack : List ActiveHeading} {seen : List (List Nat)}
    (valid : Outline.Valid platform all placed outline)
    (spine : Spine DraftNode.children outline.arena 0 path q)
    (stored : outline.arena[q]? = some parent) (edge : Edge platform all parent new)
    (leaf : new.children = []) (own : new.blockIds = [block.blockId])
    (spine' : ∃ p, Spine DraftNode.children
      (outline.arena.modify q (·.pushChild outline.arena.length) ++ [new]) 0
      (stack.map (·.nodeId)) p)
    (active : ∀ heading ∈ stack, heading ∈ outline.headingStack ∨
      heading.nodeId = outline.arena.length ∧ IsHeading platform all new heading.numbering)
    (lastOpen : LastOpen all
      (outline.arena.modify q (·.pushChild outline.arena.length) ++ [new]) stack)
    (numberings : outline.seenNumbering.reverse ++ (numberingOf platform all new).toList =
      seen.reverse)
    (distinct : seen.Nodup) :
    Outline.Valid platform all (placed ++ [block])
      ⟨outline.arena.modify q (·.pushChild outline.arena.length) ++ [new], stack, seen⟩ := by
  have inside := (List.getElem?_eq_some_iff.mp stored).1
  refine ⟨?_, ?_, valid.edges.grow stored edge leaf, spine', ?_, lastOpen, ?_, ?_, distinct, ?_⟩
  · obtain ⟨kids, root⟩ := valid.root
    have positive : 0 < outline.arena.length := by omega
    rw [List.getElem?_append_left (by simpa using positive), List.getElem?_modify, root]
    by_cases here : q = 0
    · exact ⟨kids ++ [outline.arena.length], by simp [here, DraftNode.pushChild]⟩
    · exact ⟨kids, by simp [here]⟩
  · have order := @PreorderFrom.push_under _ _ _ _ (·.pushChild outline.arena.length) new _ _
      valid.order spine (fun _ => rfl) leaf
    simpa using order
  · intro heading mem
    rcases active heading mem with earlier | ⟨isNew, isHeading⟩
    · obtain ⟨draft, at_draft, isHeading⟩ := valid.active heading earlier
      obtain ⟨f, keeps, -, found⟩ := @modify_forward platform all outline.arena q
        (·.pushChild outline.arena.length) _ draft at_draft (keeps_pushChild _)
      refine ⟨f draft, ?_, keeps.heading _ _ isHeading⟩
      have within := (List.getElem?_eq_some_iff.mp at_draft).1
      rw [List.getElem?_append_left (by simpa using within)]
      exact found
    · refine ⟨new, ?_, isHeading⟩
      rw [isNew]
      simp
  · have same := map_modify (g := fun draft : DraftNode => draft.blockIds)
      (f := (·.pushChild outline.arena.length)) (fun _ => rfl) outline.arena q
    rw [List.flatMap_append, List.map_append, ← valid.blocks, List.flatMap_def, same,
      ← List.flatMap_def]
    simp [own]
  · have same := map_modify (g := numberingOf platform all)
      (f := (·.pushChild outline.arena.length)) (fun _ => rfl) outline.arena q
    have unchanged : (outline.arena.modify q (·.pushChild outline.arena.length)).filterMap
        (numberingOf platform all) = outline.arena.filterMap (numberingOf platform all) := by
      have through : ∀ arena : List DraftNode, arena.filterMap (numberingOf platform all) =
          (arena.map (numberingOf platform all)).filterMap id := by
        intro arena
        rw [List.filterMap_map]
        rfl
      rw [through, same, ← through]
    rw [List.filterMap_append, unchanged, valid.numberings, ← numberings]
    cases found : numberingOf platform all new <;> simp [found]
  · have bound := valid.size
    simp only [List.length_append, List.length_modify, List.length_singleton]
    omega

theorem rposition_some {α : Type} {p : α → Bool} {as : List α} {i : Nat}
    (h : rposition p as = some i) : ∃ a, as[i]? = some a ∧ p a = true := by
  induction as generalizing i with
  | nil => cases h
  | cons a rest ih =>
      cases later : rposition p rest with
      | some n =>
          simp only [rposition, later, Option.some.injEq] at h
          subst h
          exact ih later
      | none =>
          by_cases holds : p a = true
          · simp only [rposition, later, holds, if_true, Option.some.injEq] at h
            subst h
            exact ⟨a, rfl, holds⟩
          · simp [rposition, later, holds] at h

/-- Where a heading goes: under the root, or under the open heading of its prefix. -/
theorem headingParent_some {numbering : List Nat} {active : List ActiveHeading}
    {seen : List (List Nat)} {parentId depth : Nat}
    (h : headingParent numbering active seen = some (parentId, depth)) :
    numbering ≠ [] ∧ numbering.length ≤ maxHeadingDepth ∧ numbering ∉ seen ∧
      (numbering.length = 1 ∧ parentId = 0 ∧ depth = 0 ∨
        ∃ position parent, active[position]? = some parent ∧ depth = position + 1 ∧
          parentId = parent.nodeId ∧ parent.numbering = numbering.dropLast ∧
          2 ≤ numbering.length) := by
  unfold headingParent at h
  split at h
  · cases h
  · next allowed =>
      simp only [not_or, Nat.not_lt] at allowed
      obtain ⟨nonempty, bounded, new⟩ := allowed
      refine ⟨nonempty, bounded, new, ?_⟩
      split at h
      · next one =>
          cases h
          exact .inl ⟨one, rfl, rfl⟩
      · next several =>
          simp only [Option.bind_eq_bind, Option.bind_eq_some_iff] at h
          obtain ⟨position, found, parent, stored, h⟩ := h
          cases h
          obtain ⟨other, same, prefixed⟩ := rposition_some found
          obtain rfl := Option.some.inj (stored.symm.trans same)
          have positive : numbering.length ≠ 0 := by simpa using nonempty
          exact .inr ⟨position, parent, stored, rfl, rfl, beq_iff_eq.mp prefixed, by omega⟩

theorem IsHeading.blockIds_nonempty {draft : DraftNode} {numbering : List Nat}
    (h : IsHeading platform all draft numbering) : draft.blockIds ≠ [] := by
  obtain ⟨first, rest, holds, -⟩ := h.own
  simp [holds.blockIds]

theorem Outline.Valid.appendContent (valid : Outline.Valid platform all placed outline)
    (mem : block ∈ all) :
    Outline.Valid platform all (placed ++ [block]) { outline with
      arena := appendContentBlock outline.arena outline.headingStack block } := by
  obtain ⟨kids, root⟩ := valid.root
  have lastOpen := valid.lastOpen
  generalize found : outline.headingStack = stack at lastOpen
  cases lastOpen with
  | heading outer active last =>
      have inside : active ∈ outline.headingStack := found ▸ List.mem_append_right _ (by simp)
      obtain ⟨draft, stored, isHeading⟩ := valid.active active inside
      have nonempty : outline.arena ≠ [] := by
        intro none
        rw [none] at last
        cases last
      have split : outline.arena = outline.arena.dropLast ++ [draft] := by
        have whole := List.dropLast_append_getLast nonempty
        have isLast : outline.arena.getLast nonempty = draft := by
          rw [List.getLast_eq_getElem]
          have index : outline.arena.length - 1 = active.nodeId := by omega
          simp only [index]
          exact (List.getElem?_eq_some_iff.mp stored).2
        rw [← isLast]
        exact whole.symm
      have index : active.nodeId = outline.arena.dropLast.length := by
        rw [List.length_dropLast]
        omega
      have nonroot : outline.arena.dropLast ≠ [] := by
        intro none
        rw [none] at index
        rw [index, List.length_nil, root] at stored
        obtain rfl := Option.some.inj stored
        have kind := isHeading.is_heading_kind
        simp at kind
      have placed := valid.pushBlock mem split (IsHeading.blockIds_nonempty isHeading) nonroot
      simpa [appendContentBlock, found, index] using placed
  | unstructured draft child pair =>
      obtain ⟨first, rest, holds⟩ := child.own
      have nonempty : draft.blockIds ≠ [] := by simp [holds.blockIds]
      have placed := @Outline.Valid.pushBlock _ _ _ _ _ [DraftNode.document.pushChild 1] _ valid
        mem pair nonempty nofun
      have here : appendContentBlock outline.arena [] block =
          outline.arena.modify 1 (·.pushBlock block) := by
        simp [appendContentBlock, pair, DraftNode.pushChild, DraftNode.document, child.kind,
          Option.filter]
      rw [here, ← found]
      exact placed
  | root alone =>
      have here : appendContentBlock outline.arena [] block =
          outline.arena.modify 0 (·.pushChild outline.arena.length) ++
            [DraftNode.withBlock .unstructured none 1 block] := by
        simp [appendContentBlock, alone, DraftNode.document, List.modify_zero_cons]
      have child : IsUnstructured all (DraftNode.withBlock .unstructured none 1 block) := by
        refine ⟨⟨block, [], rfl, rfl, ?_⟩, rfl, rfl, rfl⟩
        intro other known
        obtain rfl := List.mem_singleton.mp known
        exact mem
      have grown := @Outline.Valid.grow _ _ _ _ _ _ _ _ _ [] _ valid .nil root
        (.unstructured rfl rfl child) rfl rfl ⟨0, .nil⟩
        (fun _ impossible => absurd impossible List.not_mem_nil)
        (.unstructured _ child (by simp [alone, List.modify_zero_cons]))
        (by rw [child.numberingOf]; simp) valid.distinct
      rw [here]
      exact grown

/-- Placing a block never fails. -/
theorem placeBlock_valid (valid : Outline.Valid platform all placed outline) (mem : block ∈ all)
    (unique : (all.map (·.blockId)).Nodup) :
    ∃ next, placeBlock platform outline block = .ok next ∧
      Outline.Valid platform all (placed ++ [block]) next := by
  unfold placeBlock
  cases detected : detectNumberedHeading platform block.text with
  | none => exact ⟨_, rfl, valid.appendContent mem⟩
  | some heading =>
      cases placement : headingParent heading.numbering outline.headingStack
          outline.seenNumbering with
      | none =>
          refine ⟨_, ?_, valid.appendContent mem⟩
          simp only [Option.bind_some, placement]
          rfl
      | some place =>
          obtain ⟨parentId, depth⟩ := place
          obtain ⟨nonempty, bounded, new, parent⟩ := headingParent_some placement
          have small : heading.numbering.length ≤ u32Max := by
            rw [u32Max]
            rw [maxHeadingDepth] at bounded
            omega
          have level : toU32 heading.numbering.length = some heading.numbering.length :=
            toU32_eq_some.mpr ⟨small, rfl⟩
          simp only [Option.bind_some, placement, level, okOrElse]
          refine ⟨_, rfl, ?_⟩
          have holds : Holds all (DraftNode.withBlock
              (if heading.numbering.length = 1 then .section else .subsection) heading.title
              heading.numbering.length block) [block] := by
            refine ⟨rfl, rfl, ?_⟩
            intro other known
            obtain rfl := List.mem_singleton.mp known
            exact mem
          have positive : 1 ≤ heading.numbering.length := List.length_pos_iff.mpr nonempty
          have isHeading : IsHeading platform all (DraftNode.withBlock
              (if heading.numbering.length = 1 then .section else .subsection) heading.title
              heading.numbering.length block) heading.numbering :=
            ⟨⟨block, [], holds, detected⟩, rfl, positive, bounded, rfl⟩
          obtain ⟨kids, root⟩ := valid.root
          -- the spine that stays open ends at the parent
          obtain ⟨draft, stored, edge, spine⟩ : ∃ draft, outline.arena[parentId]? = some draft ∧
              Edge platform all draft (DraftNode.withBlock
                (if heading.numbering.length = 1 then .section else .subsection) heading.title
                heading.numbering.length block) ∧
              Spine DraftNode.children outline.arena 0
                ((outline.headingStack.take depth).map (·.nodeId)) parentId := by
            rcases parent with ⟨top, rfl, rfl⟩ |
              ⟨position, open', at_position, rfl, rfl, prefixed, deep⟩
            · exact ⟨_, root, .section rfl rfl _ top isHeading, .nil⟩
            · obtain ⟨draft, stored, parentHeading⟩ :=
                valid.active open' (List.mem_of_getElem? at_position)
              obtain ⟨_, spine⟩ := valid.spine
              refine ⟨draft, stored, .subsection _ deep isHeading (prefixed ▸ parentHeading), ?_⟩
              rw [List.map_take]
              exact spine.take (by simp [at_position])
          have inside := (List.getElem?_eq_some_iff.mp stored).1
          have arena_eq := modify_append_left inside (DraftNode.withBlock
            (if heading.numbering.length = 1 then .section else .subsection) heading.title
            heading.numbering.length block) (·.pushChild outline.arena.length)
          rw [arena_eq]
          refine valid.grow spine stored edge rfl rfl ?_ ?_ ?_ ?_ ?_
          · rw [List.map_append]
            exact ⟨_, spine.push stored rfl⟩
          · intro other known
            rcases List.mem_append.mp known with earlier | last
            · exact .inl (List.mem_of_mem_take earlier)
            · obtain rfl := List.mem_singleton.mp last
              exact .inr ⟨rfl, isHeading⟩
          · exact .heading _ _ (by simp)
          · rw [isHeading.numberingOf unique]
            simp
          · exact List.nodup_cons.mpr ⟨new, valid.distinct⟩

theorem placeBlocks_valid {blocks : List NormalizedBlock}
    (valid : Outline.Valid platform all placed outline) (known : ∀ block ∈ blocks, block ∈ all)
    (unique : (all.map (·.blockId)).Nodup) :
    ∃ next, placeBlocks platform outline blocks = .ok next ∧
      Outline.Valid platform all (placed ++ blocks) next := by
  induction blocks generalizing placed outline with
  | nil => exact ⟨outline, rfl, by simpa using valid⟩
  | cons block rest ih =>
      obtain ⟨middle, placedOne, step⟩ := placeBlock_valid valid (known block (by simp)) unique
      obtain ⟨next, placedRest, final⟩ := ih step fun other mem => known other (by simp [mem])
      refine ⟨next, ?_, by simpa using final⟩
      simp only [placeBlocks, placedOne]
      exact placedRest

/-- The outline of a whole document. -/
theorem placePages_valid {pages : List NormalizedPage}
    (valid : Outline.Valid platform all placed outline)
    (known : ∀ block ∈ pages.flatMap (·.content), block ∈ all)
    (unique : (all.map (·.blockId)).Nodup) :
    ∃ next, placePages platform outline pages = .ok next ∧
      Outline.Valid platform all (placed ++ pages.flatMap (·.content)) next := by
  induction pages generalizing placed outline with
  | nil => exact ⟨outline, rfl, by simpa using valid⟩
  | cons page rest ih =>
      simp only [List.flatMap_cons, List.forall_mem_append] at known
      obtain ⟨middle, placedPage, step⟩ := placeBlocks_valid valid known.1 unique
      obtain ⟨next, placedRest, final⟩ := ih step known.2
      refine ⟨next, ?_, by simpa using final⟩
      simp only [placePages, placedPage]
      exact placedRest

end Placing

end DocumentSummarizer.Pipeline
