import Mathlib.Data.List.Perm.Subperm
import DocumentSummarizer.Pipeline.Outline

/-! # The children of an outline node

The headings under one node share a prefix and differ in their last component,
which is at most 999; besides them there is at most one unstructured node.
-/

namespace DocumentSummarizer.Pipeline

open Library

/-! ## Components -/

theorem headingSignal_numbering {platform : TextPlatform} {numbering : List Nat}
    {rest : List Char} {heading : HeadingSignal}
    (h : headingSignal platform numbering rest = some heading) : heading.numbering = numbering := by
  simp only [headingSignal] at h
  split at h
  · cases h
    rfl
  · split at h
    · cases h
      rfl
    · cases h

theorem scanNumbering_components {platform : TextPlatform} {remaining : Nat}
    {numbering : List Nat} {text : List Char} {heading : HeadingSignal}
    (h : scanNumbering platform remaining numbering text = some heading)
    (bounded : ∀ c ∈ numbering, c ≤ maxHeadingComponent) :
    ∀ c ∈ heading.numbering, c ≤ maxHeadingComponent := by
  induction remaining generalizing numbering text with
  | zero => cases h
  | succ remaining ih =>
      simp only [scanNumbering, Option.bind_eq_bind] at h
      split at h
      · simp at h
      · simp only [Option.bind_eq_some_iff] at h
        obtain ⟨component, -, h⟩ := h
        split at h
        · simp at h
        · next small =>
            simp only [not_or, Nat.not_lt] at small
            have extended : ∀ c ∈ numbering ++ [component], c ≤ maxHeadingComponent := by
              intro c mem
              rcases List.mem_append.mp mem with earlier | last
              · exact bounded c earlier
              · rw [List.mem_singleton.mp last]
                exact small.2
            split at h
            · exact headingSignal_numbering h ▸ extended
            · split at h
              · exact ih h extended
              · exact headingSignal_numbering h ▸ extended
            · exact headingSignal_numbering h ▸ extended
            · split at h
              · exact headingSignal_numbering h ▸ extended
              · cases h
            · split at h
              · exact headingSignal_numbering h ▸ extended
              · cases h

theorem detectNumberedHeading_components {platform : TextPlatform} {text : String}
    {heading : HeadingSignal} (h : detectNumberedHeading platform text = some heading) :
    ∀ c ∈ heading.numbering, c ≤ maxHeadingComponent := by
  simp only [detectNumberedHeading, Option.bind_eq_bind, Option.bind_eq_some_iff] at h
  obtain ⟨line, -, h⟩ := h
  split at h
  · simp at h
  · exact scanNumbering_components h nofun

theorem IsHeading.components {platform : TextPlatform} {all : List NormalizedBlock}
    {draft : DraftNode} {numbering : List Nat} (h : IsHeading platform all draft numbering) :
    ∀ c ∈ numbering, c ≤ maxHeadingComponent := by
  obtain ⟨first, rest, -, detected⟩ := h.own
  exact detectNumberedHeading_components detected

/-! ## One unstructured node -/

def kinds (arena : List DraftNode) : List StructureNodeKind :=
  arena.map (·.kind)

/-- No two nodes are unstructured. -/
def Once (arena : List DraftNode) : Prop :=
  ∀ c d : Nat, (kinds arena)[c]? = some StructureNodeKind.unstructured →
    (kinds arena)[d]? = some StructureNodeKind.unstructured → c = d

theorem Once.congr {arena other : List DraftNode} (h : Once arena)
    (same : kinds other = kinds arena) : Once other := by
  intro c d
  rw [same]
  exact h c d

theorem kinds_modify {arena : List DraftNode} {q : Nat} {change : DraftNode → DraftNode}
    (same : ∀ draft, (change draft).kind = draft.kind) :
    kinds (arena.modify q change) = kinds arena :=
  map_modify same arena q

theorem Once.push {arena : List DraftNode} {new : DraftNode} (h : Once arena)
    (other : new.kind ≠ .unstructured) : Once (arena ++ [new]) := by
  have old : ∀ c : Nat, (kinds (arena ++ [new]))[c]? = some StructureNodeKind.unstructured →
      (kinds arena)[c]? = some StructureNodeKind.unstructured := by
    intro c found
    simp only [kinds, List.map_append, List.map_singleton] at found ⊢
    by_cases inside : c < (arena.map (·.kind)).length
    · rwa [List.getElem?_append_left inside] at found
    · rw [List.getElem?_append_right (Nat.not_lt.mp inside)] at found
      have last := List.mem_singleton.mp (List.mem_of_getElem? found)
      exact absurd last.symm other
  intro c d first second
  exact h c d (old c first) (old d second)

section Placing

variable {platform : TextPlatform} {all placed : List NormalizedBlock} {outline next : Outline}
  {block : NormalizedBlock}

theorem Once.appendContent (h : Once outline.arena)
    (lastOpen : LastOpen all outline.arena outline.headingStack) :
    Once (appendContentBlock outline.arena outline.headingStack block) := by
  generalize outline.headingStack = stack at lastOpen ⊢
  have pushed : ∀ q, Once (outline.arena.modify q (·.pushBlock block)) := fun q =>
    h.congr (kinds_modify fun _ => rfl)
  cases lastOpen with
  | heading outer active last => simpa [appendContentBlock] using pushed active.nodeId
  | unstructured draft child pair =>
      have here : appendContentBlock outline.arena [] block =
          outline.arena.modify 1 (·.pushBlock block) := by
        simp [appendContentBlock, pair, DraftNode.pushChild, DraftNode.document, child.kind,
          Option.filter]
      rw [here]
      exact pushed 1
  | root alone =>
      have here : kinds (appendContentBlock outline.arena [] block) =
          [.document, .unstructured] := by
        simp [appendContentBlock, alone, DraftNode.document, List.modify_zero_cons, kinds,
          DraftNode.pushChild, DraftNode.withBlock]
      have only : ∀ c : Nat, (kinds (appendContentBlock outline.arena [] block))[c]? =
          some StructureNodeKind.unstructured → c = 1 := by
        intro c found
        rw [here] at found
        cases c with
        | zero => cases found
        | succ c =>
            cases c with
            | zero => rfl
            | succ c => cases found
      intro c d first second
      rw [only c first, only d second]

theorem Once.placeBlock (h : Once outline.arena)
    (lastOpen : LastOpen all outline.arena outline.headingStack)
    (placedOne : Pipeline.placeBlock platform outline block = .ok next) : Once next.arena := by
  unfold Pipeline.placeBlock at placedOne
  cases detected : detectNumberedHeading platform block.text with
  | none =>
      rw [detected] at placedOne
      cases placedOne
      exact h.appendContent lastOpen
  | some heading =>
      cases placement : headingParent heading.numbering outline.headingStack
          outline.seenNumbering with
      | none =>
          simp only [detected, Option.bind_some, placement] at placedOne
          cases placedOne
          exact h.appendContent lastOpen
      | some place =>
          simp only [detected, Option.bind_some, placement, peel_ok, return_ok] at placedOne
          obtain ⟨level, -, rfl⟩ := placedOne
          refine Once.congr (@Once.push outline.arena (DraftNode.withBlock
            (if level = 1 then .section else .subsection) heading.title level block) h ?_)
            (kinds_modify fun _ => rfl)
          simp only [DraftNode.withBlock]
          split <;> nofun

theorem Once.placeBlocks {blocks : List NormalizedBlock}
    (valid : Outline.Valid platform all placed outline) (h : Once outline.arena)
    (known : ∀ block ∈ blocks, block ∈ all) (unique : (all.map (·.blockId)).Nodup)
    (result : Pipeline.placeBlocks platform outline blocks = .ok next) : Once next.arena := by
  induction blocks generalizing placed outline with
  | nil =>
      cases result
      exact h
  | cons block rest ih =>
      obtain ⟨middle, placedOne, step⟩ := placeBlock_valid valid (known block (by simp)) unique
      simp only [Pipeline.placeBlocks, placedOne] at result
      exact ih step (h.placeBlock valid.lastOpen placedOne)
        (fun other mem => known other (by simp [mem])) result

theorem Once.placePages {pages : List NormalizedPage}
    (valid : Outline.Valid platform all placed outline) (h : Once outline.arena)
    (known : ∀ block ∈ pages.flatMap (·.content), block ∈ all)
    (unique : (all.map (·.blockId)).Nodup)
    (result : Pipeline.placePages platform outline pages = .ok next) : Once next.arena := by
  induction pages generalizing placed outline with
  | nil =>
      cases result
      exact h
  | cons page rest ih =>
      simp only [List.flatMap_cons, List.forall_mem_append] at known
      obtain ⟨middle, placedPage, step⟩ := placeBlocks_valid valid known.1 unique
      simp only [Pipeline.placePages, placedPage] at result
      exact ih step (h.placeBlocks valid known.1 unique placedPage) known.2 result

end Placing

theorem once_empty : Once Outline.empty.arena := by
  intro c d found
  cases c with
  | zero => cases found
  | succ c => cases found

/-! ## Children -/

/-- The children of every node fit the range of their indices. -/
def FewChildren (arena : List DraftNode) : Prop :=
  ∀ (i : Nat) draft, arena[i]? = some draft → draft.children.length ≤ u32Max + 1

theorem length_le_of_bounded {values : List Nat} {bound : Nat} (distinct : values.Nodup)
    (bounded : ∀ v ∈ values, v ≤ bound) : values.length ≤ bound + 1 := by
  have inside : values ⊆ List.range (bound + 1) := by
    intro v mem
    exact List.mem_range.mpr (Nat.lt_succ_of_le (bounded v mem))
  simpa using (distinct.subperm inside).length_le

theorem index_of_numbering {platform : TextPlatform} {all : List NormalizedBlock}
    {arena : List DraftNode} (distinct : (arena.filterMap (numberingOf platform all)).Nodup)
    {c d : Nat} {x y : DraftNode} {numbering : List Nat} (at_c : arena[c]? = some x)
    (at_d : arena[d]? = some y) (first : numberingOf platform all x = some numbering)
    (second : numberingOf platform all y = some numbering) : c = d := by
  have pairs := List.pairwise_filterMap.mp distinct
  rw [List.pairwise_iff_getElem] at pairs
  obtain ⟨inside_c, rfl⟩ := List.getElem?_eq_some_iff.mp at_c
  obtain ⟨inside_d, rfl⟩ := List.getElem?_eq_some_iff.mp at_d
  rcases Nat.lt_trichotomy c d with before | same | after
  · exact absurd rfl (pairs c d inside_c inside_d before numbering first numbering second)
  · exact same
  · exact absurd rfl (pairs d c inside_d inside_c after numbering second numbering first)

/-- The heading that an edge leads to, by its last component. -/
theorem Edge.heading_child {platform : TextPlatform} {all : List NormalizedBlock}
    {parent child : DraftNode} (h : Edge platform all parent child)
    (structured : child.kind ≠ .unstructured) :
    ∃ prefixed last, IsHeading platform all child (prefixed ++ [last]) ∧
      (parent.kind = .document ∧ prefixed = [] ∨
        IsHeading platform all parent prefixed ∧ prefixed ≠ []) := by
  cases h with
  | unstructured root level child => exact absurd child.kind structured
  | «section» root level numbering top child =>
      obtain ⟨last, rfl⟩ := List.length_eq_one_iff.mp top
      exact ⟨[], last, child, .inl ⟨root, rfl⟩⟩
  | subsection numbering deep child parentHeading =>
      have nonempty : numbering ≠ [] := by
        rintro rfl
        simp at deep
      have split := List.dropLast_append_getLast nonempty
      refine ⟨numbering.dropLast, numbering.getLast nonempty, split.symm ▸ child,
        .inr ⟨parentHeading, ?_⟩⟩
      intro empty
      have short := congrArg List.length empty
      simp only [List.length_dropLast, List.length_nil] at short
      omega

theorem Outline.Valid.fewChildren {platform : TextPlatform} {all placed : List NormalizedBlock}
    {outline : Outline} (valid : Outline.Valid platform all placed outline)
    (unique : (all.map (·.blockId)).Nodup) (once : Once outline.arena) :
    FewChildren outline.arena := by
  intro i parent stored
  have nodup : parent.children.Nodup := by
    have order := valid.order
    have inside := (List.getElem?_eq_some_iff.mp stored).1
    exact order.children_nodup (Nat.zero_le i) inside stored
  have distinct : (outline.arena.filterMap (numberingOf platform all)).Nodup := by
    rw [valid.numberings]
    exact List.nodup_reverse.mpr valid.distinct
  -- the last component of a heading child; its siblings share the rest
  let lastOf : Nat → Nat := fun c =>
    ((outline.arena[c]?.bind (numberingOf platform all)).bind List.getLast?).getD 0
  let isHeading : Nat → Bool := fun c => (kinds outline.arena)[c]? != some StructureNodeKind.unstructured
  have child_of : ∀ c ∈ parent.children, isHeading c = true → ∃ child prefixed last,
      outline.arena[c]? = some child ∧ IsHeading platform all child (prefixed ++ [last]) ∧
        lastOf c = last ∧ last ≤ maxHeadingComponent ∧
        (parent.kind = .document ∧ prefixed = [] ∨
          IsHeading platform all parent prefixed ∧ prefixed ≠ []) := by
    intro c mem structured
    obtain ⟨child, childStored, edge⟩ := valid.edges i parent stored c mem
    have kind : child.kind ≠ .unstructured := by
      intro unstructured
      simp [isHeading, kinds, childStored, unstructured] at structured
    obtain ⟨prefixed, last, heading, where_⟩ := edge.heading_child kind
    refine ⟨child, prefixed, last, childStored, heading, ?_, ?_, where_⟩
    · simp [lastOf, childStored, heading.numberingOf unique]
    · exact heading.components last (by simp)
  have headings : (parent.children.filter isHeading).length ≤ maxHeadingComponent + 1 := by
    rw [← List.length_map (f := lastOf)]
    apply length_le_of_bounded
    · refine List.Nodup.map_on ?_ (nodup.filter _)
      intro c first d second same
      obtain ⟨mem_c, heading_c⟩ := List.mem_filter.mp first
      obtain ⟨mem_d, heading_d⟩ := List.mem_filter.mp second
      obtain ⟨x, p, l, at_c, isHeading_c, last_c, -, where_c⟩ := child_of c mem_c heading_c
      obtain ⟨y, q, m, at_d, isHeading_d, last_d, -, where_d⟩ := child_of d mem_d heading_d
      have prefixes : p = q := by
        rcases where_c with ⟨root, rfl⟩ | ⟨parent_c, -⟩
        · rcases where_d with ⟨-, rfl⟩ | ⟨parent_d, -⟩
          · rfl
          · have kind := parent_d.is_heading_kind
            simp [root] at kind
        · rcases where_d with ⟨root, -⟩ | ⟨parent_d, -⟩
          · have kind := parent_c.is_heading_kind
            simp [root] at kind
          · have both := (parent_c.numberingOf unique).symm.trans (parent_d.numberingOf unique)
            exact Option.some.inj both
      have lasts : l = m := last_c.symm.trans (same.trans last_d)
      subst prefixes
      subst lasts
      exact index_of_numbering distinct at_c at_d (isHeading_c.numberingOf unique)
        (isHeading_d.numberingOf unique)
    · intro value mem
      obtain ⟨c, inside, rfl⟩ := List.mem_map.mp mem
      obtain ⟨mem_c, heading_c⟩ := List.mem_filter.mp inside
      obtain ⟨-, -, last, -, -, isLast, bounded, -⟩ := child_of c mem_c heading_c
      exact isLast.symm ▸ bounded
  have others : (parent.children.filter (!isHeading ·)).length ≤ 0 + 1 := by
    rw [← List.length_map (f := fun _ => 0)]
    apply length_le_of_bounded
    · refine List.Nodup.map_on ?_ (nodup.filter _)
      intro c first d second _
      have unstructured_c := (List.mem_filter.mp first).2
      have unstructured_d := (List.mem_filter.mp second).2
      simp only [isHeading, bne, Bool.not_not, beq_iff_eq] at unstructured_c unstructured_d
      exact once c d unstructured_c unstructured_d
    · intro value mem
      obtain ⟨_, -, rfl⟩ := List.mem_map.mp mem
      exact Nat.le_refl 0
  have total := List.length_eq_length_filter_add (l := parent.children) isHeading
  rw [maxHeadingComponent] at headings
  rw [u32Max]
  omega

end DocumentSummarizer.Pipeline
