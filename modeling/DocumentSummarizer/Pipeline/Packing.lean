import DocumentSummarizer.Library.GreedyPartition
import DocumentSummarizer.Pipeline.Groups

/-! # Packing

The chunks of accepted inputs are the greedy parts of their groups.  They hold
every block once and in order, and pass the output check of the chunker.
-/

namespace DocumentSummarizer.Pipeline

open Library

/-! ## What accepted inputs satisfy -/

structure ChunkInputs.Accepted (inputs : ChunkInputs) : Prop where
  unique : (inputs.blocks.map (·.blockId)).Nodup
  visible : ∀ block ∈ inputs.blocks, isBlank block.text = false
  distinct : (inputs.groups.map (·.nodeId)).Nodup
  covered : inputs.groups.flatMap (·.blockIds) = inputs.canonicalBlockIds

theorem collectBlocks_ok {page : NormalizedPage} {seen blocks result : List NormalizedBlock}
    (h : collectBlocks page seen blocks = .ok result)
    (unique : (seen.map (·.blockId)).Nodup) (visible : ∀ block ∈ seen, isBlank block.text = false) :
    (result.map (·.blockId)).Nodup ∧ ∀ block ∈ result, isBlank block.text = false := by
  induction blocks generalizing seen with
  | nil =>
      cases h
      exact ⟨unique, visible⟩
  | cons block rest ih =>
      simp only [collectBlocks, peel_ok, refuseIf_eq_ok, not_or, findBlock_isSome] at h
      obtain ⟨_, ⟨-, shown, -, -, new⟩, later⟩ := h
      refine ih later ?_ ?_
      · rw [List.map_append, List.map_singleton, List.nodup_append]
        refine ⟨unique, List.nodup_singleton _, ?_⟩
        intro known mem other same
        rw [List.mem_singleton.mp same]
        rintro rfl
        exact new mem
      · intro other mem
        rcases List.mem_append.mp mem with earlier | last
        · exact visible other earlier
        · rw [List.mem_singleton.mp last]
          simpa using shown

theorem collectPages_ok {pages : List (NormalizedPage × StructurePage)} {index : Nat}
    {seen result : List NormalizedBlock} (h : collectPages index seen pages = .ok result)
    (unique : (seen.map (·.blockId)).Nodup) (visible : ∀ block ∈ seen, isBlank block.text = false) :
    (result.map (·.blockId)).Nodup ∧ ∀ block ∈ result, isBlank block.text = false := by
  induction pages generalizing index seen with
  | nil =>
      cases h
      exact ⟨unique, visible⟩
  | cons page rest ih =>
      simp only [collectPages, peel_ok] at h
      obtain ⟨_, -, _, -, middle, collected, later⟩ := h
      obtain ⟨unique', visible'⟩ := collectBlocks_ok collected unique visible
      exact ih later unique' visible'

theorem accepted_of_validateInputs {normalized : NormalizedDocument}
    {structured : StructuredDocument} {inputs : ChunkInputs}
    (h : validateInputs normalized structured = .ok inputs) : inputs.Accepted := by
  simp only [validateInputs, peel_ok, refuseIf_eq_ok, return_ok, not_not] at h
  obtain ⟨_, -, _, -, blocks, collected, _, -, root, -, _, -, groups, grouped, _, covered, rfl⟩ := h
  obtain ⟨unique, visible⟩ := collectPages_ok collected List.nodup_nil
    fun _ mem => absurd mem List.not_mem_nil
  exact ⟨unique, visible, (collectGroups_distinct grouped).1, covered⟩

/-! ## Chunks -/

section Chunks

variable {platform : TextPlatform} {normalized : NormalizedDocument} {inputs : ChunkInputs}

/-- The chunk holds these blocks of a group. -/
structure MadeFrom (platform : TextPlatform) (normalized : NormalizedDocument)
    (inputs : ChunkInputs) (index : Nat) (chunk : DocumentChunk) (own : List NormalizedBlock) :
    Prop where
  nonempty : own ≠ []
  known : ∀ block ∈ own, block ∈ inputs.blocks
  group : ∃ group ∈ inputs.groups, group.nodeId = chunk.structureNodeId ∧
    ∀ block ∈ own, block.blockId ∈ group.blockIds
  made : materializeChunk platform normalized chunkingVersion chunk.structureNodeId own index =
    .ok chunk

/-- Consecutive chunks, from the given index, that hold the blocks `covered`. -/
inductive Packed (platform : TextPlatform) (normalized : NormalizedDocument)
    (inputs : ChunkInputs) : Nat → List DocumentChunk → List NormalizedBlock → Prop where
  | nil {index} : Packed platform normalized inputs index [] []
  | cons {index chunk own rest covered}
      (first : MadeFrom platform normalized inputs index chunk own)
      (later : Packed platform normalized inputs (index + 1) rest covered) :
      Packed platform normalized inputs index (chunk :: rest) (own ++ covered)

theorem materializeChunk_eq {nodeId : String} {own : List NormalizedBlock} {index : Nat}
    {chunk : DocumentChunk}
    (h : materializeChunk platform normalized chunkingVersion nodeId own index = .ok chunk) :
    index + 1 ≤ u32Max ∧ chunk.ordinal = index + 1 ∧ chunk.structureNodeId = nodeId ∧
      chunk.text = joinBlocks (own.map (·.text)) ∧ chunk.blockIds = own.map (·.blockId) ∧
      chunk.sourceSpans = own.map (·.source) ∧
      chunk.chunkId = deterministicChunkId platform normalized.documentId chunkingVersion
        (index + 1) nodeId (own.map (·.blockId)) (joinBlocks (own.map (·.text))) := by
  simp only [materializeChunk, peel_ok, okOrElse_eq_ok, toU32_eq_some, return_ok] at h
  obtain ⟨_, ⟨bound, rfl⟩, rfl⟩ := h
  exact ⟨bound, rfl, rfl, rfl, rfl, rfl, rfl⟩

namespace Packed

variable {chunks : List DocumentChunk} {covered : List NormalizedBlock} {index : Nat}

theorem blockIds (h : Packed platform normalized inputs index chunks covered) :
    chunks.flatMap (·.blockIds) = covered.map (·.blockId) := by
  induction h with
  | nil => rfl
  | cons first _ ih =>
      obtain ⟨-, -, -, -, own, -⟩ := materializeChunk_eq first.made
      rw [List.flatMap_cons, List.map_append, own, ih]

end Packed

/-! ## The parts of the groups -/

def chunkCountExceeded : PipelineFailure :=
  chunkFailure "CHUNK_COUNT_EXCEEDED" "Chunk count exceeds the supported range" false

/-- The chunks of parts of nodes, from the given index. -/
def materializeParts (platform : TextPlatform) (normalized : NormalizedDocument) :
    Nat → List (String × List NormalizedBlock) → Except PipelineFailure (List DocumentChunk)
  | _, [] => return []
  | index, (nodeId, own) :: rest => do
    let chunk ← materializeChunk platform normalized chunkingVersion nodeId own index
    let chunks ← materializeParts platform normalized (index + 1) rest
    return chunk :: chunks

def groupParts (inputs : ChunkInputs) (group : StructureGroup) : List (List NormalizedBlock) :=
  greedyParts (·.text.length) 2 targetChunkCharacters []
    (group.blockIds.filterMap (findBlock inputs.blocks))

/-- The parts of the groups, each with the node of its group. -/
def allParts (inputs : ChunkInputs) (groups : List StructureGroup) :
    List (String × List NormalizedBlock) :=
  groups.flatMap fun group => (groupParts inputs group).map (group.nodeId, ·)

theorem filterMap_findBlock (accepted : inputs.Accepted) {own : List NormalizedBlock}
    (known : ∀ block ∈ own, block ∈ inputs.blocks) :
    (own.map (·.blockId)).filterMap (findBlock inputs.blocks) = own := by
  induction own with
  | nil => rfl
  | cons block rest ih =>
      have found := findBlock_of_mem accepted.unique (known block List.mem_cons_self)
      rw [List.map_cons, List.filterMap_cons_some found,
        ih fun other later => known other (List.mem_cons_of_mem _ later)]

theorem materializeParts_append {front back : List (String × List NormalizedBlock)} {index : Nat} :
    materializeParts platform normalized index (front ++ back) =
      (do
        let chunks ← materializeParts platform normalized index front
        let more ← materializeParts platform normalized (index + front.length) back
        return chunks ++ more) := by
  induction front generalizing index with
  | nil => simp only [List.nil_append, materializeParts, pure_bind, List.length_nil, Nat.add_zero,
      bind_pure]
  | cons part rest ih =>
      have next : index + (part :: rest).length = index + 1 + rest.length := by
        simp only [List.length_cons]
        omega
      simp only [List.cons_append, materializeParts, next, ih, bind_assoc, pure_bind]

theorem materializeParts_length {parts : List (String × List NormalizedBlock)} {index : Nat}
    {chunks : List DocumentChunk}
    (h : materializeParts platform normalized index parts = .ok chunks) :
    chunks.length = parts.length := by
  induction parts generalizing index chunks with
  | nil =>
      cases h
      rfl
  | cons part rest ih =>
      simp only [materializeParts, peel_ok, return_ok] at h
      obtain ⟨chunk, -, more, later, rfl⟩ := h
      rw [List.length_cons, List.length_cons, ih later]

theorem materializeParts_ok (parts : List (String × List NormalizedBlock)) {index : Nat}
    (bound : index + parts.length ≤ u32Max) :
    ∃ chunks, materializeParts platform normalized index parts = .ok chunks := by
  induction parts generalizing index with
  | nil => exact ⟨[], rfl⟩
  | cons part rest ih =>
      simp only [List.length_cons] at bound
      have fits : toU32 (index + 1) = some (index + 1) := toU32_eq_some.mpr ⟨by omega, rfl⟩
      obtain ⟨chunks, later⟩ := @ih (index + 1) (by omega)
      simp only [materializeParts, materializeChunk, fits, okOrElse_some]
      exact ⟨_, (ok_bind rfl _).trans ((ok_bind later _).trans rfl)⟩

theorem materializeParts_exceeds (parts : List (String × List NormalizedBlock)) {index : Nat}
    (start : index ≤ u32Max) (exceeded : u32Max < index + parts.length) :
    materializeParts platform normalized index parts = .error chunkCountExceeded := by
  induction parts generalizing index with
  | nil =>
      rw [List.length_nil] at exceeded
      omega
  | cons part rest ih =>
      simp only [List.length_cons] at exceeded
      by_cases last : index = u32Max
      · have overflow : toU32 (index + 1) = none := by
          rw [toU32, if_neg (by omega)]
        simp only [materializeParts, materializeChunk, overflow]
        rfl
      · have fits : toU32 (index + 1) = some (index + 1) := toU32_eq_some.mpr ⟨by omega, rfl⟩
        have later := @ih (index + 1) (by omega) (by omega)
        simp only [materializeParts, materializeChunk, fits, okOrElse_some, later]
        rfl

theorem packBlocks_eq (accepted : inputs.Accepted) {nodeId : String}
    {pending rest : List NormalizedBlock} {chunks : List DocumentChunk} {characters : Nat}
    (known : ∀ block ∈ rest, block ∈ inputs.blocks)
    (count : characters = joinedSize (·.text.length) 2 pending) :
    packBlocks platform normalized inputs nodeId chunks pending characters
        (rest.map (·.blockId)) =
      (do
        let more ← materializeParts platform normalized chunks.length
          ((greedyParts (·.text.length) 2 targetChunkCharacters pending rest).map (nodeId, ·))
        return chunks ++ more) := by
  induction rest generalizing pending chunks characters with
  | nil =>
      by_cases none : pending = []
      · simp only [List.map_nil, packBlocks, greedyParts, none, if_true, materializeParts]
        exact congrArg Except.ok (List.append_nil chunks).symm
      · simp only [List.map_nil, packBlocks, greedyParts, none, if_false, List.map_cons,
          materializeParts, bind_assoc, pure_bind]
  | cons block rest ih =>
      have found := findBlock_of_mem accepted.unique (known block (by simp))
      have later : ∀ other ∈ rest, other ∈ inputs.blocks := fun other mem =>
        known other (List.mem_cons_of_mem _ mem)
      have grown : characters + (if pending = [] then 0 else 2) + block.text.length =
          joinedSize (·.text.length) 2 (pending ++ [block]) := by
        by_cases none : pending = []
        · subst none
          rw [count, if_pos rfl]
          simp only [List.nil_append, joinedSize]
          omega
        · rw [count, if_neg none, joinedSize_snoc none]
      simp only [List.map_cons, packBlocks, found]
      refine (ok_bind (okOrElse_some block) _).trans ?_
      rw [greedyParts, grown]
      by_cases full : pending ≠ [] ∧
          joinedSize (·.text.length) 2 (pending ++ [block]) > targetChunkCharacters
      · have continued := fun chunk => @ih [block] (chunks ++ [chunk]) block.text.length later rfl
        simp only [List.length_append, List.length_singleton] at continued
        simp only [if_pos full, List.map_cons, materializeParts, continued, bind_assoc, pure_bind,
          List.append_assoc, List.singleton_append]
      · rw [if_neg full, if_neg full]
        exact ih later rfl

theorem packGroups_eq (accepted : inputs.Accepted) {groups : List StructureGroup}
    {chunks : List DocumentChunk} {todo : List NormalizedBlock}
    (listed : groups.flatMap (·.blockIds) = todo.map (·.blockId))
    (known : ∀ block ∈ todo, block ∈ inputs.blocks) :
    packGroups platform normalized inputs chunks groups =
      (do
        let more ← materializeParts platform normalized chunks.length (allParts inputs groups)
        return chunks ++ more) := by
  induction groups generalizing chunks todo with
  | nil => exact congrArg Except.ok (List.append_nil chunks).symm
  | cons group rest ih =>
      rw [List.flatMap_cons] at listed
      obtain ⟨own, later, rfl, ownIds, laterIds⟩ := List.map_eq_append_iff.mp listed.symm
      have ownKnown : ∀ block ∈ own, block ∈ inputs.blocks := fun block mem =>
        known block (List.mem_append_left _ mem)
      have packed := @packBlocks_eq platform normalized inputs accepted group.nodeId [] own chunks 0
        ownKnown rfl
      have parts : groupParts inputs group =
          greedyParts (·.text.length) 2 targetChunkCharacters [] own := by
        rw [groupParts, ← ownIds, filterMap_findBlock accepted ownKnown]
      rw [ownIds, ← parts] at packed
      simp only [packGroups, packed, allParts, List.flatMap_cons, materializeParts_append,
        bind_assoc, pure_bind]
      cases made : materializeParts platform normalized chunks.length
        ((groupParts inputs group).map (group.nodeId, ·)) with
      | error e => rfl
      | ok front =>
          have continued := @ih (chunks ++ front) later laterIds.symm fun block mem =>
            known block (List.mem_append_right _ mem)
          rw [List.length_append, materializeParts_length made] at continued
          refine continued.trans ?_
          simp only [List.append_assoc]
          rfl

/-! ## The output check -/

theorem joinBlocks_ne_empty {texts : List String} {text : String} (h : text ≠ "") :
    joinBlocks (text :: texts) ≠ "" := by
  cases texts with
  | nil => simpa [joinBlocks] using h
  | cons next rest =>
      intro empty
      rw [joinBlocks, String.intercalate_cons_cons] at empty
      have both := congrArg String.toList empty
      simp at both

theorem groupBlocks_of_mem (accepted : inputs.Accepted) {group : StructureGroup}
    (mem : group ∈ inputs.groups) :
    groupBlocks inputs.groups group.nodeId = some group.blockIds := by
  have unique : (inputs.groups.reverse.map (·.nodeId)).Nodup := by
    rw [List.map_reverse]
    exact List.nodup_reverse.mpr accepted.distinct
  rw [groupBlocks, find?_by_key unique (List.mem_reverse.mpr mem)]
  rfl

theorem validateChunkBlocks_ok (accepted : inputs.Accepted) {allowed : List String}
    {own : List NormalizedBlock} (known : ∀ block ∈ own, block ∈ inputs.blocks)
    (inside : ∀ block ∈ own, block.blockId ∈ allowed) :
    validateChunkBlocks inputs allowed ((own.map (·.blockId)).zip (own.map (·.source))) =
      .ok (own.map (·.text)) := by
  induction own with
  | nil => rfl
  | cons block rest ih =>
      have found := findBlock_of_mem accepted.unique (known block List.mem_cons_self)
      have member := inside block List.mem_cons_self
      simp only [List.map_cons, List.zip_cons_cons, validateChunkBlocks, found]
      refine (ok_bind (refuseIf_of_not (not_not.mpr member)) _).trans ?_
      refine (ok_bind (okOrElse_some block) _).trans ?_
      refine (ok_bind (refuseIf_of_not fun different => different rfl) _).trans ?_
      refine (ok_bind (ih ?_ ?_) _).trans rfl
      · exact fun other later => known other (List.mem_cons_of_mem _ later)
      · exact fun other later => inside other (List.mem_cons_of_mem _ later)

theorem validateChunks_packed (injective : Function.Injective platform.sha256Hex)
    (accepted : inputs.Accepted) {chunks : List DocumentChunk} {covered : List NormalizedBlock}
    {index : Nat} (packed : Packed platform normalized inputs index chunks covered)
    {seen : List String}
    (earlier : ∀ chunkId ∈ seen, ∃ ordinal nodeId blockIds text, ordinal ≤ index ∧
      chunkId = deterministicChunkId platform normalized.documentId chunkingVersion ordinal nodeId
        blockIds text) :
    validateChunks platform inputs normalized.documentId chunkingVersion index seen chunks =
      .ok (covered.map (·.blockId)) := by
  induction packed generalizing seen with
  | nil => rfl
  | @cons index chunk own rest covered first later ih =>
      obtain ⟨bound, ordinal, -, text, blockIds, spans, identity⟩ := materializeChunk_eq first.made
      obtain ⟨group, mem, nodeId, inside⟩ := first.group
      have fits : toU32 (index + 1) = some (index + 1) := toU32_eq_some.mpr ⟨bound, rfl⟩
      have visible : isBlank chunk.chunkId = false := by
        refine isBlank_of_visible (c := 'c') ?_ (by decide)
        rw [identity]
        simp [deterministicChunkId]
      have new : chunk.chunkId ∉ seen := by
        intro known
        obtain ⟨ordinal', nodeId', blockIds', text', before, same⟩ := earlier _ known
        have equal := deterministicChunkId_ordinal injective bound (by omega)
          (identity.symm.trans same)
        omega
      have nonempty : chunk.text ≠ "" := by
        rw [text]
        cases own with
        | nil => exact absurd rfl first.nonempty
        | cons block more =>
            exact joinBlocks_ne_empty (ne_empty_of_not_blank
              (accepted.visible block (first.known block List.mem_cons_self)))
      have others := @ih (chunk.chunkId :: seen) (by
        intro chunkId known
        rcases List.mem_cons.mp known with rfl | known
        · exact ⟨index + 1, _, _, _, Nat.le_refl _, identity⟩
        · obtain ⟨ordinal', nodeId', blockIds', text', before, same⟩ := earlier _ known
          exact ⟨ordinal', nodeId', blockIds', text', by omega, same⟩)
      rw [validateChunks, fits]
      refine (ok_bind (okOrElse_some _) _).trans ?_
      refine (ok_bind (refuseIf_of_not ?_) _).trans ?_
      · simp [ordinal, visible, new, nonempty, blockIds, spans, first.nonempty]
      rw [← nodeId, groupBlocks_of_mem accepted mem]
      refine (ok_bind (okOrElse_some _) _).trans ?_
      rw [blockIds, spans]
      refine (ok_bind (validateChunkBlocks_ok accepted first.known inside) _).trans ?_
      refine (ok_bind (refuseIf_of_not ?_) _).trans ?_
      · rw [text, identity, ordinal, nodeId]
        simp
      refine (ok_bind others _).trans ?_
      rw [List.map_append]
      rfl

theorem packed_of_materializeParts {parts : List (String × List NormalizedBlock)} {index : Nat}
    {chunks : List DocumentChunk}
    (h : materializeParts platform normalized index parts = .ok chunks)
    (nonempty : ∀ part ∈ parts, part.2 ≠ [])
    (known : ∀ part ∈ parts, ∀ block ∈ part.2, block ∈ inputs.blocks)
    (grouped : ∀ part ∈ parts, ∃ group ∈ inputs.groups, group.nodeId = part.1 ∧
      ∀ block ∈ part.2, block.blockId ∈ group.blockIds) :
    Packed platform normalized inputs index chunks (parts.flatMap (·.2)) := by
  induction parts generalizing index chunks with
  | nil =>
      cases h
      exact .nil
  | cons part rest ih =>
      simp only [materializeParts, peel_ok, return_ok] at h
      obtain ⟨chunk, made, more, later, rfl⟩ := h
      rw [List.forall_mem_cons] at nonempty known grouped
      obtain ⟨-, -, node, -⟩ := materializeChunk_eq made
      rw [List.flatMap_cons]
      exact .cons ⟨nonempty.1, known.1, node ▸ grouped.1, node.symm ▸ made⟩
        (ih later nonempty.2 known.2 grouped.2)

/-! ## All chunks -/

/-- The parts of one group. -/
structure Divides (inputs : ChunkInputs) (group : StructureGroup)
    (parts : List (List NormalizedBlock)) : Prop where
  blocks : parts.flatten.map (·.blockId) = group.blockIds
  known : ∀ block ∈ parts.flatten, block ∈ inputs.blocks
  greedy : IsGreedy (·.text.length) 2 targetChunkCharacters parts

theorem divides_all (accepted : inputs.Accepted) {groups : List StructureGroup}
    {todo : List NormalizedBlock} (listed : groups.flatMap (·.blockIds) = todo.map (·.blockId))
    (known : ∀ block ∈ todo, block ∈ inputs.blocks) :
    List.Forall₂ (Divides inputs) groups (groups.map (groupParts inputs)) ∧
      (allParts inputs groups).flatMap (·.2) = todo := by
  induction groups generalizing todo with
  | nil =>
      have nothing : todo = [] := by simpa using listed.symm
      exact ⟨.nil, nothing.symm⟩
  | cons group rest ih =>
      rw [List.flatMap_cons] at listed
      obtain ⟨own, later, rfl, ownIds, laterIds⟩ := List.map_eq_append_iff.mp listed.symm
      rw [List.forall_mem_append] at known
      obtain ⟨divided, covered⟩ := ih laterIds.symm known.2
      have whole : (groupParts inputs group).flatten = own := by
        rw [groupParts, ← ownIds, filterMap_findBlock accepted known.1, greedyParts_flatten,
          List.nil_append]
      constructor
      · rw [List.map_cons]
        refine .cons ⟨by rw [whole, ownIds], by rw [whole]; exact known.1, ?_⟩ divided
        exact greedyParts_isGreedy (fun several => absurd several (by simp))
      · rw [allParts, List.flatMap_cons, List.flatMap_append, ← allParts, covered, ← whole]
        simp [List.flatMap_map, List.flatMap_id']

theorem Divides.part {group : StructureGroup} {parts : List (List NormalizedBlock)}
    (h : Divides inputs group parts) {part : List NormalizedBlock} (mem : part ∈ parts) :
    part ≠ [] ∧ (∀ block ∈ part, block ∈ inputs.blocks) ∧
      ∀ block ∈ part, block.blockId ∈ group.blockIds := by
  have inside : ∀ block ∈ part, block ∈ parts.flatten := fun block known =>
    List.mem_flatten.mpr ⟨part, mem, known⟩
  refine ⟨h.greedy.nonempty part mem, fun block known => h.known block (inside block known), ?_⟩
  intro block known
  rw [← h.blocks]
  exact List.mem_map_of_mem (inside block known)

theorem mem_allParts {groups : List StructureGroup} {part : String × List NormalizedBlock}
    (divided : List.Forall₂ (Divides inputs) groups (groups.map (groupParts inputs)))
    (mem : part ∈ allParts inputs groups) :
    ∃ group ∈ groups, group.nodeId = part.1 ∧ part.2 ≠ [] ∧
      (∀ block ∈ part.2, block ∈ inputs.blocks) ∧
      ∀ block ∈ part.2, block.blockId ∈ group.blockIds := by
  rw [List.forall₂_map_right_iff, List.forall₂_same] at divided
  obtain ⟨group, inGroups, inside⟩ := List.mem_flatMap.mp mem
  obtain ⟨own, inParts, rfl⟩ := List.mem_map.mp inside
  exact ⟨group, inGroups, rfl, (divided group inGroups).part inParts⟩

/-- The chunker answers the chunks of the parts, when there is an ordinal for each. -/
theorem chunk_materializes {structured : StructuredDocument}
    (injective : Function.Injective platform.sha256Hex)
    (h : validateInputs normalized structured = .ok inputs) {chunks : List DocumentChunk}
    (made : materializeParts platform normalized 0 (allParts inputs inputs.groups) = .ok chunks) :
    ∃ chunked, chunk platform normalized structured = .ok chunked ∧ chunked.chunks = chunks ∧
      Packed platform normalized inputs 0 chunks inputs.blocks := by
  have accepted := accepted_of_validateInputs h
  obtain ⟨divided, whole⟩ := divides_all accepted accepted.covered fun _ mem => mem
  have packed : Packed platform normalized inputs 0 chunks inputs.blocks := by
    rw [← whole]
    apply packed_of_materializeParts made
    · intro part mem
      obtain ⟨_, -, -, nonempty, -⟩ := mem_allParts divided mem
      exact nonempty
    · intro part mem
      obtain ⟨_, -, -, -, known, -⟩ := mem_allParts divided mem
      exact known
    · intro part mem
      obtain ⟨group, inGroups, node, -, -, inside⟩ := mem_allParts divided mem
      exact ⟨group, inGroups, node, inside⟩
  have packs : packGroups platform normalized inputs [] inputs.groups = .ok chunks := by
    have all_groups := @packGroups_eq platform normalized inputs accepted inputs.groups []
      inputs.blocks accepted.covered fun _ mem => mem
    rw [List.length_nil, made] at all_groups
    exact all_groups
  have checked := @validateChunks_packed platform normalized inputs injective accepted chunks
    inputs.blocks 0 packed [] fun _ mem => absurd mem List.not_mem_nil
  have validated : ∀ warnings, validateChunkedDocument platform
      ⟨normalized.documentId, chunkingVersion, chunks, warnings⟩ normalized structured
      chunkingVersion = .ok () := by
    intro warnings
    unfold validateChunkedDocument
    refine (ok_bind h _).trans ?_
    refine (ok_bind (refuseIf_of_not ?_) _).trans ?_
    · have version : ¬ isBlank chunkingVersion = true := by decide
      simp only [not_or]
      exact ⟨fun different => different rfl, fun different => different rfl, version⟩
    refine (ok_bind checked _).trans ?_
    exact refuseIf_of_not fun different => different rfl
  unfold chunk
  exact ⟨_, (ok_bind h _).trans ((ok_bind packs _).trans ((ok_bind (validated _) _).trans rfl)),
    rfl, packed⟩

theorem chunk_exceeds {structured : StructuredDocument}
    (h : validateInputs normalized structured = .ok inputs)
    (exceeded : u32Max < (allParts inputs inputs.groups).length) :
    chunk platform normalized structured = .error chunkCountExceeded := by
  have accepted := accepted_of_validateInputs h
  have packs : packGroups platform normalized inputs [] inputs.groups =
      .error chunkCountExceeded := by
    have all_groups := @packGroups_eq platform normalized inputs accepted inputs.groups []
      inputs.blocks accepted.covered fun _ mem => mem
    rw [List.length_nil, materializeParts_exceeds _ (Nat.zero_le _) (by omega)] at all_groups
    exact all_groups
  unfold chunk
  refine (ok_bind h _).trans ?_
  simp only [packs]
  rfl

theorem length_le_flatten {α : Type} {parts : List (List α)}
    (nonempty : ∀ part ∈ parts, part ≠ []) : parts.length ≤ parts.flatten.length := by
  induction parts with
  | nil => exact Nat.le_refl _
  | cons part rest ih =>
      rw [List.forall_mem_cons] at nonempty
      have some_item := List.length_pos_iff.mpr nonempty.1
      have others := ih nonempty.2
      simp only [List.length_cons, List.flatten_cons, List.length_append]
      omega

theorem chunk_accepts {structured : StructuredDocument}
    (injective : Function.Injective platform.sha256Hex)
    (h : validateInputs normalized structured = .ok inputs)
    (bound : inputs.blocks.length ≤ u32Max) :
    ∃ chunked, chunk platform normalized structured = .ok chunked ∧
      Packed platform normalized inputs 0 chunked.chunks inputs.blocks := by
  have accepted := accepted_of_validateInputs h
  obtain ⟨divided, whole⟩ := divides_all accepted accepted.covered fun _ mem => mem
  have few : ((allParts inputs inputs.groups).map (·.2)).length ≤ inputs.blocks.length := by
    rw [← whole, List.flatMap_def]
    apply length_le_flatten
    intro own mem
    obtain ⟨part, inside, rfl⟩ := List.mem_map.mp mem
    obtain ⟨_, -, -, nonempty, -⟩ := mem_allParts divided inside
    exact nonempty
  rw [List.length_map] at few
  obtain ⟨chunks, made⟩ := @materializeParts_ok platform normalized
    (allParts inputs inputs.groups) 0 (by omega)
  obtain ⟨chunked, result, rfl, packed⟩ := chunk_materializes injective h made
  exact ⟨chunked, result, packed⟩

end Chunks

end DocumentSummarizer.Pipeline
