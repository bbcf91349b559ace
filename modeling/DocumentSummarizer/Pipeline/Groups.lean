import DocumentSummarizer.Pipeline.StructuredTree

/-! # The groups of an interpreted document

The chunker accepts what interpretation produces: its groups are the subtrees
under the root, and together they hold the blocks in order.
-/

namespace DocumentSummarizer.Pipeline

open Library

theorem findBlock_of_mem {all : List NormalizedBlock} {block : NormalizedBlock}
    (unique : (all.map (·.blockId)).Nodup) (mem : block ∈ all) :
    findBlock all block.blockId = some block :=
  find?_by_key unique mem

section Walking

variable {platform : TextPlatform} {all : List NormalizedBlock} {arena : List DraftNode}
  {documentId version : String}

theorem isBlank_nodeId {path : List Nat} {kind : StructureNodeKind} {title : Option String}
    {level : Nat} {blockIds : List String} :
    isBlank (deterministicNodeId platform documentId version path kind title level blockIds) =
      false := by
  refine isBlank_of_visible (c := 's') ?_ (by decide)
  simp [deterministicNodeId]

theorem validateProvenanceSpans_ok (unique : (all.map (·.blockId)).Nodup)
    {own : List NormalizedBlock} (known : ∀ block ∈ own, block ∈ all) :
    validateProvenanceSpans all ((own.map (·.blockId)).zip (own.map (·.source))) = .ok () := by
  induction own with
  | nil => rfl
  | cons block rest ih =>
      have found := findBlock_of_mem unique (known block List.mem_cons_self)
      simp only [List.map_cons, List.zip_cons_cons, validateProvenanceSpans, found, okOrElse]
      refine (ok_bind (refuseIf_of_not (by simp)) _).trans ?_
      exact ih fun other mem => known other (List.mem_cons_of_mem _ mem)

theorem validateNodeProvenance_eq (node : StructureNode) :
    validateNodeProvenance all node =
      (validateProvenanceSpans all (node.blockIds.zip node.sourceSpans) >>= fun _ =>
        validateAllProvenance all node.children) := by
  cases node
  rw [validateNodeProvenance]

theorem collectGroupBlocks_eq (node : StructureNode) (visit : GroupVisit) :
    collectGroupBlocks node visit =
      (do
        refuseIf (isBlank node.nodeId = true ∨ node.nodeId ∈ visit.nodeIds)
          (invalidChunkStructure "Structure node IDs must be present and unique")
        refuseIf (node.blockIds.length ≠ node.sourceSpans.length)
          (invalidChunkStructure "Structure block and source-span counts must agree")
        collectAllBlocks node.children
          ⟨visit.output ++ node.blockIds, node.nodeId :: visit.nodeIds⟩) := by
  cases node
  rw [collectGroupBlocks]

theorem validateAllProvenance_materialized (unique : (all.map (·.blockId)).Nodup)
    (edges : EdgesHold platform all arena) {ids : List Nat} {i k : Nat}
    (order : PreorderFrom DraftNode.children arena ids i k) {fuel : Nat} (enough : k - i ≤ fuel)
    {parentDraft : DraftNode} {path : List Nat} {start : Nat}
    (fits : ∀ c ∈ ids, ∃ child, arena[c]? = some child ∧ Edge platform all parentDraft child) :
    validateAllProvenance all
      (materializeAll platform arena documentId version fuel path start ids) = .ok () := by
  induction order generalizing fuel parentDraft path start with
  | nil =>
      simp only [materializeAll, List.zipIdx_nil, List.map_nil, validateAllProvenance]
      rfl
  | @cons i j k rest draft stored below later ihBelow ihLater =>
      have lower := below.le
      have upper := later.le
      obtain ⟨fuel, rfl⟩ : ∃ n, fuel = n + 1 := ⟨fuel - 1, by omega⟩
      obtain ⟨child, childStored, edge⟩ := fits i List.mem_cons_self
      obtain rfl := Option.some.inj (stored.symm.trans childStored)
      obtain ⟨first, more, holds⟩ := edge.own
      have children := @ihBelow fuel (by omega) draft (path ++ [childComponent start]) 0
        (edges i draft stored)
      have others := @ihLater (fuel + 1) (by omega) parentDraft path (start + 1)
        fun c mem => fits c (List.mem_cons_of_mem _ mem)
      have own : validateProvenanceSpans all (draft.blockIds.zip draft.sourceSpans) = .ok () := by
        rw [holds.blockIds, holds.sourceSpans]
        exact validateProvenanceSpans_ok unique holds.known
      simp only [materializeAll, List.zipIdx_cons, List.map_cons, validateAllProvenance]
      refine (ok_bind (a := ()) ?_ _).trans others
      rw [materializeNode_succ stored, validateNodeProvenance_eq]
      exact (ok_bind own _).trans children

theorem collectGroupBlocks_of_children (injective : Function.Injective platform.sha256Hex)
    {parentDraft draft : DraftNode} {i fuel : Nat} {path : List Nat} {visit result : GroupVisit}
    (stored : arena[i]? = some draft) (edge : Edge platform all parentDraft draft)
    (at_level : PathAt draft.level path)
    (earlier : Earlier platform documentId version path visit.nodeIds)
    (children : collectAllBlocks
        (materializeAll platform arena documentId version fuel path 0 draft.children)
        ⟨visit.output ++ draft.blockIds, deterministicNodeId platform documentId version path
          draft.kind draft.title draft.level draft.blockIds :: visit.nodeIds⟩ = .ok result) :
    collectGroupBlocks (materializeNode platform arena documentId version (fuel + 1) i path)
      visit = .ok result := by
  obtain ⟨first, more, holds⟩ := edge.own
  rw [materializeNode_succ stored, collectGroupBlocks_eq]
  refine (ok_bind (refuseIf_of_not ?_) _).trans ?_
  · rw [isBlank_nodeId, not_or]
    exact ⟨nofun, earlier.fresh injective at_level⟩
  refine (ok_bind (refuseIf_of_not ?_) _).trans children
  simp [holds.blockIds, holds.sourceSpans]

/-- Consecutive children hand over the blocks of the covered nodes in preorder. -/
theorem collectAllBlocks_materialized (injective : Function.Injective platform.sha256Hex)
    (edges : EdgesHold platform all arena) (few : FewChildren arena) {ids : List Nat}
    {i k : Nat} (order : PreorderFrom DraftNode.children arena ids i k) {fuel : Nat}
    (enough : k - i ≤ fuel) {parentDraft : DraftNode} {path : List Nat} {start : Nat}
    {visit : GroupVisit}
    (fits : ∀ c ∈ ids, ∃ child, arena[c]? = some child ∧ Edge platform all parentDraft child)
    (at_level : PathAt parentDraft.level path) (within : start + ids.length ≤ u32Max + 1)
    (earlier : Earlier platform documentId version (path ++ [start]) visit.nodeIds) :
    ∃ nodeIds, collectAllBlocks
        (materializeAll platform arena documentId version fuel path start ids) visit =
      .ok ⟨visit.output ++ (slice arena i k).flatMap (·.blockIds), nodeIds⟩ ∧
      Earlier platform documentId version (path ++ [start + ids.length]) nodeIds := by
  induction order generalizing fuel parentDraft path start visit with
  | nil =>
      refine ⟨visit.nodeIds, ?_, earlier⟩
      rw [slice_self]
      simp only [materializeAll, List.zipIdx_nil, List.map_nil, collectAllBlocks,
        List.flatMap_nil, List.append_nil]
      rfl
  | @cons i j k rest draft stored below later ihBelow ihLater =>
      have lower := below.le
      have upper := later.le
      obtain ⟨fuel, rfl⟩ : ∃ n, fuel = n + 1 := ⟨fuel - 1, by omega⟩
      obtain ⟨child, childStored, edge⟩ := fits i List.mem_cons_self
      obtain rfl := Option.some.inj (stored.symm.trans childStored)
      simp only [List.length_cons] at within
      have index : start ≤ u32Max := by omega
      have level : PathAt draft.level (path ++ [start]) :=
        edge.level_eq ▸ at_level.child index (edge.level_eq ▸ edge.level_le)
      have entered := @Earlier.visit _ _ _ _ _ earlier draft.kind draft.title draft.level
        draft.blockIds level 0
      have narrow : 0 + draft.children.length ≤ u32Max + 1 := by
        have width := few i draft stored
        omega
      obtain ⟨belowIds, belowOk, belowEarlier⟩ := @ihBelow fuel (by omega) draft (path ++ [start])
        0 ⟨visit.output ++ draft.blockIds, _⟩ (edges i draft stored) level narrow entered
      have remaining : start + 1 + rest.length ≤ u32Max + 1 := by omega
      obtain ⟨nodeIds, laterOk, laterEarlier⟩ := @ihLater (fuel + 1) (by omega) parentDraft path
        (start + 1) ⟨visit.output ++ draft.blockIds ++
          (slice arena (i + 1) j).flatMap (·.blockIds), belowIds⟩
        (fun c mem => fits c (List.mem_cons_of_mem _ mem)) at_level remaining
        belowEarlier.leave
      have node := collectGroupBlocks_of_children injective stored edge level earlier belowOk
      refine ⟨nodeIds, ?_, ?_⟩
      · rw [materializeAll_cons index, collectAllBlocks]
        refine (ok_bind node _).trans (laterOk.trans ?_)
        rw [slice_cons stored (by omega), slice_append lower upper]
        simp only [List.flatMap_cons, List.flatMap_append, List.append_assoc]
      · have count : start + (i :: rest).length = start + 1 + rest.length := by
          simp only [List.length_cons]
          omega
        rw [count]
        exact laterEarlier

theorem collectGroups_materialized (unique : (all.map (·.blockId)).Nodup)
    (injective : Function.Injective platform.sha256Hex)
    (edges : EdgesHold platform all arena) (few : FewChildren arena) {ids : List Nat}
    {i k : Nat} (order : PreorderFrom DraftNode.children arena ids i k) {fuel : Nat}
    (enough : k - i ≤ fuel) {parentDraft : DraftNode} {path : List Nat} {start : Nat}
    {nodeIds : List String}
    (fits : ∀ c ∈ ids, ∃ child, arena[c]? = some child ∧ Edge platform all parentDraft child)
    (at_level : PathAt parentDraft.level path) (within : start + ids.length ≤ u32Max + 1)
    (earlier : Earlier platform documentId version (path ++ [start]) nodeIds) :
    ∃ groups, collectGroups all nodeIds
        (materializeAll platform arena documentId version fuel path start ids) = .ok groups ∧
      groups.flatMap (·.blockIds) = (slice arena i k).flatMap (·.blockIds) := by
  induction order generalizing fuel parentDraft path start nodeIds with
  | nil =>
      refine ⟨[], ?_, by rw [slice_self]; rfl⟩
      simp only [materializeAll, List.zipIdx_nil, List.map_nil, collectGroups]
      rfl
  | @cons i j k rest draft stored below later _ ihLater =>
      have lower := below.le
      have upper := later.le
      obtain ⟨fuel, rfl⟩ : ∃ n, fuel = n + 1 := ⟨fuel - 1, by omega⟩
      obtain ⟨child, childStored, edge⟩ := fits i List.mem_cons_self
      obtain rfl := Option.some.inj (stored.symm.trans childStored)
      obtain ⟨first, more, holds⟩ := edge.own
      simp only [List.length_cons] at within
      have index : start ≤ u32Max := by omega
      have level : PathAt draft.level (path ++ [start]) :=
        edge.level_eq ▸ at_level.child index (edge.level_eq ▸ edge.level_le)
      have entered := @Earlier.visit _ _ _ _ _ earlier draft.kind draft.title draft.level
        draft.blockIds level 0
      have narrow : 0 + draft.children.length ≤ u32Max + 1 := by
        have width := few i draft stored
        omega
      obtain ⟨belowIds, belowOk, belowEarlier⟩ := @collectAllBlocks_materialized platform all
        arena documentId version injective edges few _ _ _ below fuel (by omega) draft
        (path ++ [start]) 0 ⟨[] ++ draft.blockIds, _⟩ (edges i draft stored) level narrow entered
      have node := @collectGroupBlocks_of_children _ _ _ _ _ injective _ _ _ _ _ ⟨[], nodeIds⟩ _
        stored edge level earlier belowOk
      have provenance := @validateAllProvenance_materialized platform all arena documentId version
        unique edges _ _ _ below fuel (by omega) draft (path ++ [start]) 0 (edges i draft stored)
      have own : validateProvenanceSpans all (draft.blockIds.zip draft.sourceSpans) = .ok () := by
        rw [holds.blockIds, holds.sourceSpans]
        exact validateProvenanceSpans_ok unique holds.known
      have checked : validateNodeProvenance all
          (materializeNode platform arena documentId version (fuel + 1) i (path ++ [start])) =
            .ok () := by
        rw [materializeNode_succ stored, validateNodeProvenance_eq]
        exact (ok_bind own _).trans provenance
      have remaining : start + 1 + rest.length ≤ u32Max + 1 := by omega
      obtain ⟨groups, laterOk, covered⟩ := @ihLater (fuel + 1) (by omega) parentDraft path
        (start + 1) belowIds (fun c mem => fits c (List.mem_cons_of_mem _ mem)) at_level remaining
        belowEarlier.leave
      refine ⟨⟨(materializeNode platform arena documentId version (fuel + 1) i
          (path ++ [start])).nodeId, [] ++ draft.blockIds ++
            (slice arena (i + 1) j).flatMap (·.blockIds)⟩ :: groups, ?_, ?_⟩
      · rw [materializeAll_cons index, collectGroups]
        refine (ok_bind node _).trans ?_
        refine (ok_bind checked _).trans ?_
        exact (ok_bind laterOk _).trans rfl
      · rw [slice_cons stored (by omega), slice_append lower upper]
        simp only [List.flatMap_cons, List.flatMap_append, covered, List.nil_append,
          List.append_assoc]

end Walking

/-! ## Accepted inputs -/

section Inputs

variable {normalized : NormalizedDocument} {structured : StructuredDocument}
  {blocks : List NormalizedBlock} {inputs : ChunkInputs}

mutual

theorem collectGroupBlocks_nodeIds {node : StructureNode} {visit result : GroupVisit}
    (h : collectGroupBlocks node visit = .ok result) :
    node.nodeId ∉ visit.nodeIds ∧ node.nodeId ∈ result.nodeIds ∧
      visit.nodeIds ⊆ result.nodeIds := by
  cases node with
  | mk nodeId kind title level blockIds sourceSpans children =>
      simp only [collectGroupBlocks, peel_ok, refuseIf_eq_ok, not_or] at h
      obtain ⟨_, ⟨-, new⟩, _, -, collected⟩ := h
      have kept := collectAllBlocks_nodeIds collected
      exact ⟨new, kept List.mem_cons_self, fun _ mem => kept (List.mem_cons_of_mem _ mem)⟩

theorem collectAllBlocks_nodeIds {nodes : List StructureNode} {visit result : GroupVisit}
    (h : collectAllBlocks nodes visit = .ok result) : visit.nodeIds ⊆ result.nodeIds := by
  cases nodes with
  | nil =>
      cases h
      exact fun _ mem => mem
  | cons node rest =>
      simp only [collectAllBlocks, peel_ok] at h
      obtain ⟨middle, first, later⟩ := h
      have kept := (collectGroupBlocks_nodeIds first).2.2
      exact fun _ mem => collectAllBlocks_nodeIds later (kept mem)

end

theorem collectGroups_distinct {nodeIds : List String} {nodes : List StructureNode}
    {groups : List StructureGroup} (h : collectGroups blocks nodeIds nodes = .ok groups) :
    (groups.map (·.nodeId)).Nodup ∧ ∀ group ∈ groups, group.nodeId ∉ nodeIds := by
  induction nodes generalizing nodeIds groups with
  | nil =>
      cases h
      exact ⟨List.nodup_nil, fun _ mem => absurd mem List.not_mem_nil⟩
  | cons node rest ih =>
      simp only [collectGroups, peel_ok, return_ok] at h
      obtain ⟨visit, collected, _, -, others, later, rfl⟩ := h
      obtain ⟨new, seen, kept⟩ := collectGroupBlocks_nodeIds collected
      obtain ⟨distinct, apart⟩ := ih later
      constructor
      · rw [List.map_cons, List.nodup_cons]
        refine ⟨?_, distinct⟩
        intro mem
        obtain ⟨group, inside, same⟩ := List.mem_map.mp mem
        exact apart group inside (same ▸ seen)
      · intro group mem
        rcases List.mem_cons.mp mem with rfl | inside
        · exact new
        · exact fun known => apart group inside (kept known)

theorem findBlock_isSome {blocks : List NormalizedBlock} {blockId : String} :
    (findBlock blocks blockId).isSome = true ↔ blockId ∈ blocks.map (·.blockId) := by
  simp [findBlock, List.find?_isSome]

theorem collectBlocks_of_validated {page : NormalizedPage} {seen seen' : List String}
    {before : List NormalizedBlock}
    (h : validateInputBlocks page seen blocks = .ok seen')
    (agree : ∀ blockId, blockId ∈ seen ↔ blockId ∈ before.map (·.blockId))
    (distinct : (before.map (·.blockId)).Nodup) :
    collectBlocks page before blocks = .ok (before ++ blocks) ∧
      ((before ++ blocks).map (·.blockId)).Nodup ∧
      ∀ blockId, blockId ∈ seen' ↔ blockId ∈ (before ++ blocks).map (·.blockId) := by
  induction blocks generalizing seen before with
  | nil =>
      cases h
      rw [List.append_nil]
      exact ⟨rfl, distinct, agree⟩
  | cons block rest ih =>
      simp only [validateInputBlocks, peel_ok, refuseIf_eq_ok, not_or] at h
      obtain ⟨_, ⟨identified, new, visible, start, stop⟩, later⟩ := h
      have fresh : block.blockId ∉ before.map (·.blockId) := fun mem =>
        new ((agree block.blockId).mpr mem)
      obtain ⟨collected, unique, agrees⟩ := @ih (block.blockId :: seen) (before ++ [block]) later
        (by
          intro blockId
          rw [List.mem_cons, agree, List.map_append, List.mem_append, List.map_singleton,
            List.mem_singleton]
          exact or_comm)
        (by
          rw [List.map_append, List.map_singleton]
          refine List.nodup_append.mpr ⟨distinct, List.nodup_singleton _, ?_⟩
          intro known mem other same
          rw [List.mem_singleton.mp same]
          rintro rfl
          exact fresh mem)
      rw [List.append_assoc, List.singleton_append] at collected unique agrees
      refine ⟨?_, unique, agrees⟩
      rw [collectBlocks]
      refine (ok_bind (refuseIf_of_not ?_) _).trans collected
      rw [findBlock_isSome]
      simp only [not_or]
      exact ⟨identified, visible, start, stop, fresh⟩

theorem collectPages_of_validated {pages : List NormalizedPage} {index : Nat}
    {seen : List String} {before : List NormalizedBlock}
    (h : validateInputPages index seen pages = .ok ())
    (agree : ∀ blockId, blockId ∈ seen ↔ blockId ∈ before.map (·.blockId))
    (distinct : (before.map (·.blockId)).Nodup) :
    collectPages index before (pages.zip (pages.map (·.structurePage))) =
        .ok (before ++ pages.flatMap (·.content)) ∧
      ((before ++ pages.flatMap (·.content)).map (·.blockId)).Nodup := by
  induction pages generalizing index seen before with
  | nil =>
      rw [List.flatMap_nil, List.append_nil]
      exact ⟨rfl, distinct⟩
  | cons page rest ih =>
      simp only [validateInputPages, peel_ok, okOrElse_eq_ok, refuseIf_eq_ok, not_not] at h
      obtain ⟨expected, fits, _, numbered, _, -, seen', validated, later⟩ := h
      obtain ⟨collected, unique, agrees⟩ := collectBlocks_of_validated validated agree distinct
      obtain ⟨others, distinct'⟩ := ih later agrees unique
      rw [List.append_assoc] at others distinct'
      refine ⟨?_, distinct'⟩
      rw [List.map_cons, List.zip_cons_cons, collectPages, fits]
      refine (ok_bind (okOrElse_some expected) _).trans ?_
      refine (ok_bind (refuseIf_of_not ?_) _).trans ?_
      · simp [numbered, NormalizedPage.structurePage]
      · exact (ok_bind collected _).trans others

theorem validateNormalizedInput_distinct (accepted : validateNormalizedInput normalized = .ok ()) :
    (normalized.blocks.map (·.blockId)).Nodup := by
  simp only [validateNormalizedInput, peel_ok] at accepted
  obtain ⟨_, -, validated⟩ := accepted
  exact (@collectPages_of_validated _ _ _ [] validated (fun _ => Iff.rfl) List.nodup_nil).2

theorem validateInputs_accepts {platform : TextPlatform} {outline : Outline}
    (injective : Function.Injective platform.sha256Hex)
    (accepted : validateNormalizedInput normalized = .ok ())
    (valid : Outline.Valid platform normalized.blocks normalized.blocks outline)
    (few : FewChildren outline.arena) :
    ∃ groups, validateInputs normalized (structuredOf platform normalized outline.arena) =
      .ok ⟨normalized.blocks, groups⟩ := by
  have unique := validateNormalizedInput_distinct accepted
  simp only [validateNormalizedInput, peel_ok, refuseIf_eq_ok, not_or] at accepted
  obtain ⟨_, ⟨identified, versioned⟩, validated⟩ := accepted
  have collected := (@collectPages_of_validated _ _ _ [] validated (fun _ => Iff.rfl)
    List.nodup_nil).1
  obtain ⟨kids, fuel, root, count, below, covered, -⟩ := valid.below_root
  have narrow : 0 + kids.length ≤ u32Max + 1 := by
    rw [Nat.zero_add]
    exact few 0 _ root
  have entered := @Earlier.visit platform normalized.documentId structureVersion [0] []
    Earlier.none .document none 0 [] pathAt_root 0
  obtain ⟨groups, grouped, gathered⟩ := @collectGroups_materialized platform normalized.blocks
    outline.arena normalized.documentId structureVersion unique injective valid.edges few _ _ _
    below fuel (by omega) _ [0] 0 _ (valid.edges 0 _ root) pathAt_root narrow entered
  have node := @materializeNode_succ platform outline.arena normalized.documentId
    structureVersion _ 0 [0] fuel root
  refine ⟨groups, ?_⟩
  unfold validateInputs
  refine (ok_bind (refuseIf_of_not ?_) _).trans ?_
  · have version : ¬ isBlank structureVersion = true := by decide
    simp only [not_or]
    exact ⟨identified, versioned, fun different => different rfl, version⟩
  refine (ok_bind (refuseIf_of_not (by simp [structuredOf])) _).trans ?_
  refine (ok_bind collected _).trans ?_
  refine (ok_bind (refuseIf_of_not (by simp [structuredOf])) _).trans ?_
  refine (ok_bind (okOrElse_some _) _).trans ?_
  rw [count, node]
  refine (ok_bind (refuseIf_of_not (by simp)) _).trans ?_
  refine (ok_bind grouped _).trans ?_
  refine (ok_bind (refuseIf_of_not fun different => different ?_) _).trans rfl
  exact gathered.trans covered

end Inputs

end DocumentSummarizer.Pipeline
