import DocumentSummarizer.Pipeline.Fanout

/-! # Validating the materialized tree

The tree of a valid outline passes the checks of interpretation and of
chunking, and its preorder is the block order.
-/

namespace DocumentSummarizer.Pipeline

open Library

/-- The node carries the data of the draft. -/
structure Reflects (draft : DraftNode) (node : StructureNode) : Prop where
  kind : node.kind = draft.kind
  title : node.title = draft.title
  level : node.level = draft.level
  blockIds : node.blockIds = draft.blockIds
  sourceSpans : node.sourceSpans = draft.sourceSpans

section Checks

variable {platform : TextPlatform} {all : List NormalizedBlock} {parentDraft draft : DraftNode}
  {parent node : StructureNode} {numbering : List Nat}

theorem IsHeading.level_le (h : IsHeading platform all draft numbering) : draft.level ≤ u32Max := by
  have bounded := h.depth
  rw [h.level, u32Max]
  rw [maxHeadingDepth] at bounded
  omega

theorem Edge.level_eq (h : Edge platform all parentDraft draft) :
    draft.level = parentDraft.level + 1 := by
  cases h with
  | unstructured root level child => rw [child.level, level]
  | «section» root level numbering top child => rw [child.level, level, top]
  | subsection numbering deep child parent =>
      rw [child.level, parent.level, List.length_dropLast]
      omega

theorem Edge.level_le (h : Edge platform all parentDraft draft) : draft.level ≤ u32Max := by
  cases h with
  | unstructured root level child =>
      rw [child.level, u32Max]
      omega
  | «section» root level numbering top child => exact child.level_le
  | subsection numbering deep child parent => exact child.level_le

/-- The blocks of a draft that an edge leads to. -/
theorem Edge.own (h : Edge platform all parentDraft draft) :
    ∃ first rest, Holds all draft (first :: rest) := by
  cases h with
  | unstructured root level child => exact child.own
  | «section» root level numbering top child =>
      obtain ⟨first, rest, holds, -⟩ := child.own
      exact ⟨first, rest, holds⟩
  | subsection numbering deep child parent =>
      obtain ⟨first, rest, holds, -⟩ := child.own
      exact ⟨first, rest, holds⟩

theorem validateNodeShape_ok (edge : Edge platform all parentDraft draft)
    (ofParent : Reflects parentDraft parent) (ofNode : Reflects draft node) :
    validateNodeShape node (some parent) = .ok () := by
  obtain ⟨first, rest, holds⟩ := edge.own
  have nonempty : node.blockIds.isEmpty = false := by
    rw [ofNode.blockIds, holds.blockIds]
    rfl
  unfold validateNodeShape
  refine refuseIf_of_not ?_
  cases edge with
  | unstructured root level child =>
      simp [ofNode.kind, child.kind, ofParent.kind, root, ofNode.level, child.level, ofNode.title,
        child.title, nonempty]
  | «section» root level numbering top child =>
      have one : draft.level = 1 := child.level.trans top
      simp [ofNode.kind, child.kind, one, ofParent.kind, root, ofNode.level, nonempty]
  | subsection numbering deep child parentHeading =>
      have several : draft.level ≠ 1 := by
        rw [child.level]
        omega
      have next : toU32 (parentDraft.level + 1) = some draft.level := by
        rw [toU32_eq_some, child.level, parentHeading.level, List.length_dropLast]
        have bounded := child.level_le
        rw [child.level] at bounded
        omega
      have depth : draft.level ≤ maxHeadingDepth := child.level ▸ child.depth
      have parentKind := parentHeading.is_heading_kind
      rcases parentKind with kind | kind <;>
        simp [ofNode.kind, child.kind, several, ofParent.kind, kind, ofParent.level,
          ofNode.level, next, depth, nonempty]

theorem headingSignalForNode_ok (unique : (all.map (·.blockId)).Nodup)
    (heading : IsHeading platform all draft numbering) (ofNode : Reflects draft node) :
    headingSignalForNode platform all node = .ok ⟨numbering, draft.title⟩ := by
  obtain ⟨first, rest, holds, detected⟩ := heading.own
  have found := blockLookup_of_mem unique (holds.known first List.mem_cons_self)
  have head : node.blockIds.head? = some first.blockId := by
    rw [ofNode.blockIds, holds.blockIds]
    rfl
  simp only [headingSignalForNode, head, okOrElse]
  show (okOrElse (blockLookup all first.blockId) _ >>= _) = _
  rw [found, okOrElse_some]
  show okOrElse (detectNumberedHeading platform first.text) _ = _
  rw [detected, okOrElse_some]

theorem validateHeadingSource_ok (unique : (all.map (·.blockId)).Nodup)
    (edge : Edge platform all parentDraft draft) (ofParent : Reflects parentDraft parent)
    (ofNode : Reflects draft node) {seen : List (List Nat)}
    (new : ∀ n, numberingOf platform all draft = some n → n ∉ seen) :
    validateHeadingSource platform all node (some parent) seen =
      .ok ((numberingOf platform all draft).toList ++ seen) := by
  have heading_ok : ∀ {numbering}, IsHeading platform all draft numbering →
      (¬ (toU32 numbering.length ≠ some node.level ∨ draft.title ≠ node.title ∨
        numbering ∈ seen)) := by
    intro numbering heading
    have length : toU32 numbering.length = some node.level := by
      rw [ofNode.level, toU32_eq_some, ← heading.level]
      exact ⟨heading.level_le, rfl⟩
    have fresh := new numbering (heading.numberingOf unique)
    simp [length, ofNode.title, fresh]
  cases edge with
  | unstructured root level child =>
      have other : ¬ (node.kind = .section ∨ node.kind = .subsection) := by
        simp [ofNode.kind, child.kind]
      simp only [validateHeadingSource, other, if_false, child.numberingOf, Option.toList_none,
        List.nil_append]
      rfl
  | «section» root level numbering top child =>
      have kind : node.kind = .section := by
        rw [ofNode.kind, child.kind, child.level, top]
        rfl
      have signal := headingSignalForNode_ok unique child ofNode
      simp only [validateHeadingSource, kind, true_or, if_true, reduceCtorEq, if_false, signal,
        child.numberingOf unique]
      exact (ok_bind (refuseIf_of_not (heading_ok child)) _)
  | subsection numbering deep child parentHeading =>
      have kind : node.kind = .subsection := by
        have several : numbering.length ≠ 1 := by omega
        rw [ofNode.kind, child.kind, child.level]
        simp [several]
      have signal := headingSignalForNode_ok unique child ofNode
      have parentSignal := headingSignalForNode_ok unique parentHeading ofParent
      simp only [validateHeadingSource, kind, or_true, if_true, signal,
        child.numberingOf unique]
      refine (ok_bind (refuseIf_of_not (heading_ok child)) _).trans ?_
      refine (ok_bind (okOrElse_some parent) _).trans ?_
      refine (ok_bind parentSignal _).trans ?_
      exact (ok_bind (refuseIf_of_not (by simp)) _)

theorem validateSpans_ok (unique : (all.map (·.blockId)).Nodup) {own : List NormalizedBlock}
    (known : ∀ block ∈ own, block ∈ all) :
    validateSpans all ((own.map (·.blockId)).zip (own.map (·.source))) = .ok () := by
  induction own with
  | nil => rfl
  | cons block rest ih =>
      have found := blockLookup_of_mem unique (known block List.mem_cons_self)
      simp only [List.map_cons, List.zip_cons_cons, validateSpans, found, okOrElse]
      refine (ok_bind (refuseIf_of_not (by simp)) _).trans ?_
      exact ih fun other mem => known other (List.mem_cons_of_mem _ mem)

theorem visitNode_ok (unique : (all.map (·.blockId)).Nodup)
    (injective : Function.Injective platform.sha256Hex) {documentId version : String}
    {path : List Nat} {visit : NodeVisit} (edge : Edge platform all parentDraft draft)
    (ofParent : Reflects parentDraft parent) (ofNode : Reflects draft node)
    (identity : node.nodeId = deterministicNodeId platform documentId version path draft.kind
      draft.title draft.level draft.blockIds)
    (at_level : PathAt draft.level path)
    (earlier : Earlier platform documentId version path visit.nodeIds)
    (new : ∀ n, numberingOf platform all draft = some n → n ∉ visit.headingNumbering) :
    visitNode platform all documentId version node (some parent) path visit =
      .ok ⟨visit.referencedBlocks ++ draft.blockIds, node.nodeId :: visit.nodeIds,
        (numberingOf platform all draft).toList ++ visit.headingNumbering⟩ := by
  obtain ⟨first, rest, holds⟩ := edge.own
  unfold visitNode
  refine (ok_bind (validateNodeShape_ok edge ofParent ofNode) _).trans ?_
  refine (ok_bind (validateHeadingSource_ok unique edge ofParent ofNode new) _).trans ?_
  refine (ok_bind (refuseIf_of_not ?_) _).trans ?_
  · simp [ofNode.blockIds, ofNode.sourceSpans, holds.blockIds, holds.sourceSpans]
  refine (ok_bind (refuseIf_of_not ?_) _).trans ?_
  · rw [ofNode.kind, ofNode.title, ofNode.level, ofNode.blockIds, identity, not_or]
    exact ⟨fun different => different rfl, earlier.fresh injective at_level⟩
  have spans : validateSpans all (node.blockIds.zip node.sourceSpans) = .ok () := by
    rw [ofNode.blockIds, ofNode.sourceSpans, holds.blockIds, holds.sourceSpans]
    exact validateSpans_ok unique holds.known
  refine (ok_bind spans _).trans ?_
  rw [ofNode.blockIds]
  rfl

end Checks

/-! ## The tree of a valid outline -/

section Materialized

variable {platform : TextPlatform} {all : List NormalizedBlock} {arena : List DraftNode}
  {documentId version : String}

theorem validateNode_eq (node : StructureNode) (parent : Option StructureNode) (path : List Nat)
    (visit : NodeVisit) :
    validateNode platform all documentId version node parent path visit =
      (visitNode platform all documentId version node parent path visit >>= fun visit =>
        validateChildren platform all documentId version node.children node path 0 visit) := by
  cases node
  rw [validateNode]

/-- The trees of consecutive children, from the given index. -/
def materializeAll (platform : TextPlatform) (arena : List DraftNode)
    (documentId version : String) (fuel : Nat) (path : List Nat) (start : Nat) (ids : List Nat) :
    List StructureNode :=
  (ids.zipIdx start).map fun child =>
    materializeNode platform arena documentId version fuel child.1
      (path ++ [childComponent child.2])

theorem childComponent_eq {index : Nat} (bound : index ≤ u32Max) : childComponent index = index := by
  simp [childComponent, toU32, bound]

theorem materializeAll_cons {fuel start i : Nat} {path rest : List Nat}
    (index : start ≤ u32Max) :
    materializeAll platform arena documentId version fuel path start (i :: rest) =
      materializeNode platform arena documentId version fuel i (path ++ [start]) ::
        materializeAll platform arena documentId version fuel path (start + 1) rest := by
  simp only [materializeAll, List.zipIdx_cons, List.map_cons, childComponent_eq index]

theorem filterMap_cons_toList {α β : Type} (f : α → Option β) (a : α) (as : List α) :
    (a :: as).filterMap f = (f a).toList ++ as.filterMap f := by
  cases found : f a <;> simp [found]

theorem materializeNode_succ {draft : DraftNode} {nodeId : Nat} {path : List Nat} {fuel : Nat}
    (stored : arena[nodeId]? = some draft) :
    materializeNode platform arena documentId version (fuel + 1) nodeId path =
      { nodeId := deterministicNodeId platform documentId version path draft.kind draft.title
          draft.level draft.blockIds
        kind := draft.kind, title := draft.title, level := draft.level
        blockIds := draft.blockIds, sourceSpans := draft.sourceSpans
        children := materializeAll platform arena documentId version fuel path 0
          draft.children } := by
  simp only [materializeNode, List.getD_eq_getElem?_getD, stored, Option.getD_some,
    materializeAll]

theorem reflects_materializeNode {draft : DraftNode} {nodeId : Nat} {path : List Nat}
    {fuel : Nat} (stored : arena[nodeId]? = some draft) :
    Reflects draft
      (materializeNode platform arena documentId version (fuel + 1) nodeId path) := by
  rw [materializeNode_succ stored]
  exact ⟨rfl, rfl, rfl, rfl, rfl⟩

/-- How a list without repetitions is consumed, front to back, into one that grows backwards. -/
theorem nodup_thirds {α : Type} [DecidableEq α] {own below later seen : List α}
    (h : ((own ++ (below ++ later)) ++ seen).Nodup) :
    (∀ a ∈ own, a ∉ seen) ∧ (below ++ (own ++ seen)).Nodup ∧
      (later ++ (below.reverse ++ (own ++ seen))).Nodup := by
  grind [List.nodup_append]

/-- Consecutive children of a node pass validation: the blocks and numberings of the covered
nodes are collected in preorder. -/
theorem validateChildren_materialized (unique : (all.map (·.blockId)).Nodup)
    (injective : Function.Injective platform.sha256Hex) (edges : EdgesHold platform all arena)
    (few : FewChildren arena) {ids : List Nat} {i k : Nat}
    (order : PreorderFrom DraftNode.children arena ids i k) {fuel : Nat} (enough : k - i ≤ fuel)
    {parentDraft : DraftNode} {parent : StructureNode} {path : List Nat} {start : Nat}
    {visit : NodeVisit} (ofParent : Reflects parentDraft parent)
    (fits : ∀ c ∈ ids, ∃ child, arena[c]? = some child ∧ Edge platform all parentDraft child)
    (at_level : PathAt parentDraft.level path) (within : start + ids.length ≤ u32Max + 1)
    (earlier : Earlier platform documentId version (path ++ [start]) visit.nodeIds)
    (distinct : ((slice arena i k).filterMap (numberingOf platform all) ++
      visit.headingNumbering).Nodup) :
    ∃ nodeIds, validateChildren platform all documentId version
        (materializeAll platform arena documentId version fuel path start ids) parent path start
        visit =
      .ok ⟨visit.referencedBlocks ++ (slice arena i k).flatMap (·.blockIds), nodeIds,
        ((slice arena i k).filterMap (numberingOf platform all)).reverse ++
          visit.headingNumbering⟩ ∧
      Earlier platform documentId version (path ++ [start + ids.length]) nodeIds := by
  induction order generalizing fuel parentDraft parent path start visit with
  | nil =>
      refine ⟨visit.nodeIds, ?_, earlier⟩
      rw [slice_self]
      simp only [materializeAll, List.zipIdx_nil, List.map_nil, validateChildren,
        List.flatMap_nil, List.append_nil, List.filterMap_nil, List.reverse_nil, List.nil_append]
      rfl
  | @cons i j k rest draft stored below later ihBelow ihLater =>
      have lower := below.le
      have upper := later.le
      obtain ⟨fuel, rfl⟩ : ∃ n, fuel = n + 1 := ⟨fuel - 1, by omega⟩
      obtain ⟨child, childStored, edge⟩ := fits i List.mem_cons_self
      obtain rfl := Option.some.inj (stored.symm.trans childStored)
      simp only [List.length_cons] at within
      have index : start ≤ u32Max := by omega
      have component : toU32 start = some start := toU32_eq_some.mpr ⟨index, rfl⟩
      have level : PathAt draft.level (path ++ [start]) :=
        edge.level_eq ▸ at_level.child index (edge.level_eq ▸ edge.level_le)
      rw [slice_cons stored (by omega), slice_append lower upper] at distinct ⊢
      rw [filterMap_cons_toList, List.filterMap_append] at distinct ⊢
      obtain ⟨new, distinctBelow, distinctLater⟩ := nodup_thirds distinct
      have ofNode := @reflects_materializeNode platform arena documentId version draft i
        (path ++ [start]) fuel stored
      have visited := visitNode_ok unique injective edge ofParent ofNode
        (by rw [materializeNode_succ stored]) level earlier
        (fun n found => new n (by rw [found]; exact Option.mem_toList.mpr rfl))
      have entered := @Earlier.visit _ _ _ _ _ earlier draft.kind draft.title draft.level
        draft.blockIds level 0
      have narrow : 0 + draft.children.length ≤ u32Max + 1 := by
        have width := few i draft stored
        omega
      obtain ⟨belowIds, belowOk, belowEarlier⟩ := @ihBelow fuel (by omega) draft _ (path ++ [start])
        0
        ⟨visit.referencedBlocks ++ draft.blockIds, _,
          (numberingOf platform all draft).toList ++ visit.headingNumbering⟩
        ofNode (edges i draft stored) level narrow entered distinctBelow
      have left := belowEarlier.leave
      have remaining : start + 1 + rest.length ≤ u32Max + 1 := by omega
      obtain ⟨nodeIds, laterOk, laterEarlier⟩ := @ihLater (fuel + 1) (by omega) parentDraft
        parent path (start + 1) ⟨visit.referencedBlocks ++ draft.blockIds ++
            (slice arena (i + 1) j).flatMap (·.blockIds), belowIds,
          ((slice arena (i + 1) j).filterMap (numberingOf platform all)).reverse ++
            ((numberingOf platform all draft).toList ++ visit.headingNumbering)⟩
        ofParent (fun c mem => fits c (List.mem_cons_of_mem _ mem)) at_level remaining
        left distinctLater
      refine ⟨nodeIds, ?_, ?_⟩
      · rw [materializeAll_cons index, validateChildren, component]
        refine (ok_bind (okOrElse_some start) _).trans ?_
        have descended := (validateNode_eq _ (some parent) (path ++ [start]) visit).trans
          (ok_bind visited _)
        rw [materializeNode_succ stored] at belowOk descended
        have descended := descended.trans belowOk
        rw [← materializeNode_succ stored] at descended
        refine (ok_bind descended _).trans (laterOk.trans ?_)
        cases numberingOf platform all draft <;> simp
      · have count : start + (i :: rest).length = start + 1 + rest.length := by
          simp only [List.length_cons]
          omega
        rw [count]
        exact laterEarlier

theorem visitNode_root {children : List StructureNode} :
    visitNode platform all documentId version ⟨deterministicNodeId platform documentId version [0]
        .document none 0 [], .document, none, 0, [], [], children⟩ none [0] ⟨[], [], []⟩ =
      .ok ⟨[], [deterministicNodeId platform documentId version [0] .document none 0 []], []⟩ := by
  unfold visitNode
  refine (ok_bind (refuseIf_of_not (by simp)) _).trans ?_
  refine (ok_bind (a := []) rfl _).trans ?_
  refine (ok_bind (refuseIf_of_not (by simp)) _).trans ?_
  refine (ok_bind (refuseIf_of_not (by simp)) _).trans ?_
  rfl

/-- The root of an outline and what lies below it. -/
theorem Outline.Valid.below_root {placed : List NormalizedBlock} {outline : Outline}
    (valid : Outline.Valid platform all placed outline) :
    ∃ kids fuel, outline.arena[0]? = some ⟨.document, none, 0, [], [], kids⟩ ∧
      outline.arena.length = fuel + 1 ∧
      PreorderFrom DraftNode.children outline.arena kids (0 + 1) (fuel + 1) ∧
      (slice outline.arena (0 + 1) (fuel + 1)).flatMap (·.blockIds) = placed.map (·.blockId) ∧
      (slice outline.arena (0 + 1) (fuel + 1)).filterMap (numberingOf platform all) =
        outline.seenNumbering.reverse := by
  obtain ⟨kids, root⟩ := valid.root
  have inside := (List.getElem?_eq_some_iff.mp root).1
  have whole := slice_cons root inside
  rw [slice_all] at whole
  have order := valid.order
  generalize count : outline.arena.length = n at order inside whole
  obtain ⟨fuel, rfl⟩ : ∃ m, n = m + 1 := ⟨n - 1, by omega⟩
  cases order with
  | cons stored below later =>
      cases later with
      | nil =>
          obtain rfl := Option.some.inj (root.symm.trans stored)
          refine ⟨kids, fuel, root, rfl, below, ?_, ?_⟩
          · have all_nodes := congrArg (·.flatMap (·.blockIds)) whole
            rw [← valid.blocks]
            exact all_nodes.symm
          · have all_nodes := congrArg (·.filterMap (numberingOf platform all)) whole
            rw [← valid.numberings]
            exact (all_nodes.trans (filterMap_cons_toList _ _ _)).symm

theorem pathAt_root : PathAt 0 [0] where
  length := rfl
  components c mem := by
    rw [List.mem_singleton.mp mem]
    exact Nat.zero_le _
  bounded := Nat.zero_le _

/-- The root of a valid outline passes validation and covers the blocks in order. -/
theorem validateNode_root {outline : Outline} (valid : Outline.Valid platform all all outline)
    (unique : (all.map (·.blockId)).Nodup) (injective : Function.Injective platform.sha256Hex)
    (few : FewChildren outline.arena) :
    ∃ visit, validateNode platform all documentId version
        (materializeNode platform outline.arena documentId version outline.arena.length 0 [0])
        none [0] ⟨[], [], []⟩ = .ok visit ∧ visit.referencedBlocks = all.map (·.blockId) := by
  obtain ⟨kids, fuel, root, count, below, blocks, numberings⟩ := valid.below_root
  have narrow : 0 + kids.length ≤ u32Max + 1 := by
    rw [Nat.zero_add]
    exact few 0 _ root
  have entered := @Earlier.visit platform documentId version [0] [] Earlier.none .document
    none 0 [] pathAt_root 0
  have distinct : ((slice outline.arena (0 + 1) (fuel + 1)).filterMap
      (numberingOf platform all) ++ []).Nodup := by
    rw [List.append_nil, numberings]
    exact List.nodup_reverse.mpr valid.distinct
  obtain ⟨nodeIds, children, -⟩ := @validateChildren_materialized platform all
    outline.arena documentId version unique injective valid.edges few _ _ _
    below fuel (by omega) _ _ [0] 0 ⟨[], _, []⟩
    (@reflects_materializeNode platform _ documentId version _ 0 [0] fuel root)
    (valid.edges 0 _ root) pathAt_root narrow entered distinct
  rw [materializeNode_succ root, blocks] at children
  rw [validateNode_eq, count, materializeNode_succ root]
  exact ⟨_, (ok_bind visitNode_root _).trans children, rfl⟩

end Materialized

/-! ## Interpretation -/

section Interpretation

variable {platform : TextPlatform} {normalized : NormalizedDocument}

/-- The structured document of an outline. -/
def structuredOf (platform : TextPlatform) (normalized : NormalizedDocument)
    (arena : List DraftNode) : StructuredDocument where
  documentId := normalized.documentId
  structureVersion := structureVersion
  pages := normalized.pages.map (·.structurePage)
  nodes := [materializeNode platform arena normalized.documentId structureVersion arena.length 0
    [0]]
  warnings := normalized.warnings

theorem interpret_accepts (injective : Function.Injective platform.sha256Hex)
    (accepted : validateNormalizedInput normalized = .ok ())
    (unique : (normalized.blocks.map (·.blockId)).Nodup) :
    ∃ outline, Outline.Valid platform normalized.blocks normalized.blocks outline ∧
      FewChildren outline.arena ∧
      interpret platform normalized = .ok (structuredOf platform normalized outline.arena) := by
  obtain ⟨outline, placed, valid⟩ := @placePages_valid platform normalized.blocks []
    Outline.empty normalized.pages Outline.valid_empty (fun _ mem => mem) unique
  have once := once_empty.placePages Outline.valid_empty (fun _ mem => mem) unique placed
  have few := valid.fewChildren unique once
  refine ⟨outline, valid, few, ?_⟩
  have validated : validateStructuredDocument platform
      (structuredOf platform normalized outline.arena) normalized structureVersion = .ok () := by
    obtain ⟨visit, walked, covered⟩ := @validateNode_root platform normalized.blocks
      normalized.documentId structureVersion outline valid unique injective few
    unfold validateStructuredDocument
    refine (ok_bind accepted _).trans ?_
    refine (ok_bind (refuseIf_of_not fun different => different rfl) _).trans ?_
    refine (ok_bind (refuseIf_of_not ?_) _).trans ?_
    · rintro (blank | different)
      · exact absurd (show isBlank structureVersion = true from blank) (by decide)
      · exact different rfl
    refine (ok_bind (refuseIf_of_not fun different => different rfl) _).trans ?_
    refine (ok_bind (refuseIf_of_not fun different => different rfl) _).trans ?_
    refine (ok_bind (refuseIf_of_not fun different => different rfl) _).trans ?_
    refine (ok_bind (okOrElse_some _) _).trans ?_
    refine (ok_bind walked _).trans ?_
    exact refuseIf_of_not fun different => different covered
  unfold interpret
  refine (ok_bind accepted _).trans ?_
  refine (ok_bind placed _).trans ?_
  exact (ok_bind validated _).trans rfl

end Interpretation

end DocumentSummarizer.Pipeline
