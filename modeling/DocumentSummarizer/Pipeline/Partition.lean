import DocumentSummarizer.Pipeline.Interpretation

/-! # What the chunks of a document are

The greedy parts of every group, one chunk each.  Chunking fails only when it
runs out of ordinals.
-/

namespace DocumentSummarizer.Pipeline

open Library

/-- The chunk of a part of a node's blocks. -/
structure Renders (nodeId : String) (part : List NormalizedBlock) (chunk : DocumentChunk) :
    Prop where
  node : chunk.structureNodeId = nodeId
  blockIds : chunk.blockIds = part.map (·.blockId)
  sourceSpans : chunk.sourceSpans = part.map (·.source)
  text : chunk.text = joinBlocks (part.map (·.text))
  length : chunk.text.length = joinedSize (·.text.length) 2 part
  exceeds : exceedsTargetWarning ∈ chunk.warnings ↔
    ∃ block ∈ part, targetChunkCharacters < block.text.length

/-- The chunks are the parts of the groups, in order. -/
structure Partitions (normalized : NormalizedDocument) (inputs : ChunkInputs)
    (parts : StructureGroup → List (List NormalizedBlock)) (chunks : List DocumentChunk) :
    Prop where
  rendered : List.Forall₂ (fun part chunk => Renders part.1 part.2 chunk)
    (inputs.groups.flatMap fun group => (parts group).map (group.nodeId, ·)) chunks
  exceeds : (∃ chunk ∈ chunks, exceedsTargetWarning ∈ chunk.warnings) ↔
    ∃ block ∈ normalized.blocks, targetChunkCharacters < block.text.length

section Rendering

variable {platform : TextPlatform} {normalized : NormalizedDocument} {inputs : ChunkInputs}

theorem joinBlocks_length (own : List NormalizedBlock) :
    (joinBlocks (own.map (·.text))).length = joinedSize (·.text.length) 2 own := by
  induction own with
  | nil => rfl
  | cons block rest ih =>
      cases rest with
      | nil => simp [joinBlocks, joinedSize]
      | cons next more =>
          simp only [List.map_cons, joinBlocks] at ih ⊢
          rw [String.intercalate_cons_cons, String.length_append, String.length_append, ih,
            joinedSize]
          rfl

theorem renders_of_materializeChunk {nodeId : String} {own : List NormalizedBlock} {index : Nat}
    {chunk : DocumentChunk}
    (fits : 2 ≤ own.length → joinedSize (·.text.length) 2 own ≤ targetChunkCharacters)
    (h : materializeChunk platform normalized chunkingVersion nodeId own index = .ok chunk) :
    Renders nodeId own chunk := by
  simp only [materializeChunk, peel_ok, return_ok] at h
  obtain ⟨ordinal, -, rfl⟩ := h
  refine ⟨rfl, rfl, rfl, rfl, joinBlocks_length own, ?_⟩
  simp only [joinBlocks_length]
  constructor
  · intro warned
    by_cases large : joinedSize (fun block : NormalizedBlock => block.text.length) 2 own >
        targetChunkCharacters
    · -- only a single block can be too large
      have single : own.length < 2 := by
        by_contra several
        exact absurd (fits (Nat.not_lt.mp several)) (Nat.not_le.mpr large)
      cases own with
      | nil => exact absurd large (Nat.not_lt.mpr (Nat.zero_le _))
      | cons block rest =>
          cases rest with
          | nil => exact ⟨block, List.mem_cons_self, large⟩
          | cons next more =>
              simp only [List.length_cons] at single
              omega
    · rw [if_neg large] at warned
      exact absurd warned List.not_mem_nil
  · rintro ⟨block, mem, large⟩
    have whole := @size_le_joinedSize _ (fun block : NormalizedBlock => block.text.length) 2 _ _ mem
    rw [if_pos (Nat.lt_of_lt_of_le large whole)]
    exact List.mem_singleton.mpr rfl

theorem renders_of_materializeParts {parts : List (String × List NormalizedBlock)} {index : Nat}
    {chunks : List DocumentChunk}
    (fits : ∀ part ∈ parts, 2 ≤ part.2.length →
      joinedSize (·.text.length) 2 part.2 ≤ targetChunkCharacters)
    (h : materializeParts platform normalized index parts = .ok chunks) :
    List.Forall₂ (fun part chunk => Renders part.1 part.2 chunk) parts chunks := by
  induction parts generalizing index chunks with
  | nil =>
      cases h
      exact .nil
  | cons part rest ih =>
      simp only [materializeParts, peel_ok, return_ok] at h
      obtain ⟨chunk, made, more, later, rfl⟩ := h
      rw [List.forall_mem_cons] at fits
      exact .cons (renders_of_materializeChunk fits.1 made) (ih fits.2 later)

theorem exceeds_iff {parts : List (String × List NormalizedBlock)} {chunks : List DocumentChunk}
    (h : List.Forall₂ (fun part chunk => Renders part.1 part.2 chunk) parts chunks) :
    (∃ chunk ∈ chunks, exceedsTargetWarning ∈ chunk.warnings) ↔
      ∃ block ∈ parts.flatMap (·.2), targetChunkCharacters < block.text.length := by
  induction h with
  | nil => simp
  | cons first _ ih =>
      simp only [List.mem_cons, List.flatMap_cons, List.mem_append, or_and_right, exists_or,
        exists_eq_left, first.exceeds, ih]

theorem collectBlocks_eq {page : NormalizedPage} {seen blocks result : List NormalizedBlock}
    (h : collectBlocks page seen blocks = .ok result) : result = seen ++ blocks := by
  induction blocks generalizing seen with
  | nil =>
      cases h
      exact (List.append_nil _).symm
  | cons block rest ih =>
      simp only [collectBlocks, peel_ok] at h
      obtain ⟨_, -, later⟩ := h
      rw [ih later, List.append_assoc, List.singleton_append]

theorem collectPages_eq {pages : List (NormalizedPage × StructurePage)} {index : Nat}
    {seen result : List NormalizedBlock} (h : collectPages index seen pages = .ok result) :
    result = seen ++ (pages.map (·.1)).flatMap (·.content) := by
  induction pages generalizing index seen with
  | nil =>
      cases h
      exact (List.append_nil _).symm
  | cons page rest ih =>
      simp only [collectPages, peel_ok] at h
      obtain ⟨_, -, _, -, middle, collected, later⟩ := h
      rw [ih later, collectBlocks_eq collected, List.append_assoc, List.map_cons,
        List.flatMap_cons]

theorem blocks_of_validateInputs {structured : StructuredDocument}
    (h : validateInputs normalized structured = .ok inputs) :
    inputs.blocks = normalized.blocks := by
  simp only [validateInputs, peel_ok, refuseIf_eq_ok, return_ok, not_not] at h
  obtain ⟨_, -, _, count, blocks, collected, _, -, _, -, _, -, _, -, _, -, rfl⟩ := h
  have pages := collectPages_eq collected
  rw [List.nil_append, List.map_fst_zip (Nat.le_of_eq count)] at pages
  exact pages

/-- Chunking accepted inputs renders the greedy parts of the groups, or fails because there are
more parts than ordinals. -/
theorem chunk_partitions {structured : StructuredDocument}
    (injective : Function.Injective platform.sha256Hex)
    (h : validateInputs normalized structured = .ok inputs) :
    ∃ parts : StructureGroup → List (List NormalizedBlock),
      (∀ group ∈ inputs.groups, Divides inputs group (parts group)) ∧
      ((inputs.groups.flatMap parts).length ≤ u32Max →
        ∃ chunked, chunk platform normalized structured = .ok chunked ∧
          Partitions normalized inputs parts chunked.chunks) ∧
      (u32Max < (inputs.groups.flatMap parts).length →
        chunk platform normalized structured = .error chunkCountExceeded) := by
  have accepted := accepted_of_validateInputs h
  obtain ⟨divided, whole⟩ := divides_all accepted accepted.covered fun _ mem => mem
  have each := divided
  rw [List.forall₂_map_right_iff, List.forall₂_same] at each
  have count : (allParts inputs inputs.groups).length =
      (inputs.groups.flatMap (groupParts inputs)).length := by
    simp [allParts, List.length_flatMap]
  refine ⟨groupParts inputs, each, ?_, ?_⟩
  · intro bound
    obtain ⟨chunks, made⟩ := @materializeParts_ok platform normalized
      (allParts inputs inputs.groups) 0 (by omega)
    obtain ⟨chunked, result, rfl, -⟩ := chunk_materializes injective h made
    have fits : ∀ part ∈ allParts inputs inputs.groups, 2 ≤ part.2.length →
        joinedSize (·.text.length) 2 part.2 ≤ targetChunkCharacters := by
      intro part mem
      obtain ⟨group, inGroups, inside⟩ := List.mem_flatMap.mp mem
      obtain ⟨own, inParts, rfl⟩ := List.mem_map.mp inside
      exact (each group inGroups).greedy.fits own inParts
    have rendered := renders_of_materializeParts fits made
    refine ⟨chunked, result, rendered, ?_⟩
    rw [← blocks_of_validateInputs h, ← whole]
    exact exceeds_iff rendered
  · intro exceeded
    exact chunk_exceeds h (by omega)

end Rendering

/-! ## The chunks of a section -/

theorem section_document_partitions :
    ∃ normalized structured inputs, normalize sectionPlatform sectionDocument = .ok normalized ∧
      interpret sectionPlatform normalized = .ok structured ∧
      validateInputs normalized structured = .ok inputs ∧
      ∃ parts : StructureGroup → List (List NormalizedBlock),
        (∀ group ∈ inputs.groups, Divides inputs group (parts group)) ∧
        ((inputs.groups.flatMap parts).length ≤ u32Max →
          ∃ chunked, chunk sectionPlatform normalized structured = .ok chunked ∧
            Partitions normalized inputs parts chunked.chunks) ∧
        (u32Max < (inputs.groups.flatMap parts).length →
          chunk sectionPlatform normalized structured = .error chunkCountExceeded) := by
  obtain ⟨inputs, result⟩ := exists_ok (show (do
      let normalized ← normalize sectionPlatform sectionDocument
      let structured ← interpret sectionPlatform normalized
      validateInputs normalized structured).isOk = true by decide +kernel)
  simp only [peel_ok] at result
  obtain ⟨normalized, normalizes, structured, interprets, accepts⟩ := result
  exact ⟨normalized, structured, inputs, normalizes, interprets, accepts,
    chunk_partitions sectionPlatform_injective accepts⟩

/-! ## More groups than ordinals -/

def manyId (c : Char) (i : Nat) : String :=
  String.ofList (List.replicate (i + 1) c)

def manySpan : SourceSpan :=
  ⟨1, 1, none, .nativeText⟩

def manyBlock (i : Nat) : NormalizedBlock :=
  ⟨manyId 'b' i, .text, "x", manySpan⟩

def manyNode (i : Nat) : StructureNode :=
  ⟨manyId 'n' i, .unstructured, none, 1, [manyId 'b' i], [manySpan], []⟩

def manyPage (n : Nat) : NormalizedPage :=
  ⟨1, (List.range n).map manyBlock, [], false⟩

/-- One page of `n` blocks. -/
def manyNormalized (n : Nat) : NormalizedDocument :=
  ⟨"doc", "1.0.0", [manyPage n], []⟩

/-- A node for each of the `n` blocks. -/
def manyStructured (n : Nat) : StructuredDocument :=
  ⟨"doc", "1.0.0", [⟨1, [], false⟩],
    [⟨"root", .document, none, 0, [], [], (List.range n).map manyNode⟩], []⟩

def manyInputs (n : Nat) : ChunkInputs :=
  ⟨(List.range n).map manyBlock, (List.range n).map fun i => ⟨manyId 'n' i, [manyId 'b' i]⟩⟩

theorem manyId_injective (c : Char) : Function.Injective (manyId c) := by
  intro i j same
  have lengths := congrArg String.length same
  simp only [manyId, String.length_ofList, List.length_replicate] at lengths
  omega

theorem isBlank_manyId {c : Char} (i : Nat) (visible : isWhitespace c = false) :
    isBlank (manyId c i) = false := by
  refine isBlank_of_visible (c := c) ?_ visible
  simp [manyId]

theorem manyBlocks_nodup {indices : List Nat} (distinct : indices.Nodup) :
    ((indices.map manyBlock).map (·.blockId)).Nodup := by
  rw [List.map_map]
  exact distinct.map (manyId_injective 'b')

theorem collectBlocks_many {seen indices : List Nat} (n : Nat)
    (distinct : (seen ++ indices).Nodup) :
    collectBlocks (manyPage n) (seen.map manyBlock) (indices.map manyBlock) =
      .ok ((seen ++ indices).map manyBlock) := by
  induction indices generalizing seen with
  | nil =>
      rw [List.append_nil]
      rfl
  | cons i rest ih =>
      rw [List.map_cons, collectBlocks]
      have new : ¬ (findBlock (seen.map manyBlock) (manyBlock i).blockId).isSome = true := by
        rw [findBlock_isSome, List.map_map]
        intro known
        obtain ⟨j, mem, same⟩ := List.mem_map.mp known
        have equal : j = i := manyId_injective 'b' same
        subst equal
        exact (List.nodup_append.mp distinct).2.2 j mem j List.mem_cons_self rfl
      have visible : isBlank (manyBlock i).blockId = false := isBlank_manyId i (by decide)
      have text : isBlank (manyBlock i).text = false := show isBlank "x" = false by decide
      refine (ok_bind (refuseIf_of_not ?_) _).trans ?_
      · simp only [visible, text, Bool.false_eq_true, false_or, not_or]
        exact ⟨fun different => different rfl, fun different => different rfl, new⟩
      have later := @ih (seen ++ [i]) (by simpa using distinct)
      simp only [List.map_append, List.map_cons, List.map_nil, List.append_assoc,
        List.singleton_append] at later ⊢
      exact later

theorem collectGroups_many {blocks : List NormalizedBlock} {indices : List Nat}
    {nodeIds : List String} (unique : (blocks.map (·.blockId)).Nodup)
    (known : ∀ i ∈ indices, manyBlock i ∈ blocks) (distinct : indices.Nodup)
    (new : ∀ i ∈ indices, manyId 'n' i ∉ nodeIds) :
    collectGroups blocks nodeIds (indices.map manyNode) =
      .ok (indices.map fun i => ⟨manyId 'n' i, [manyId 'b' i]⟩) := by
  induction indices generalizing nodeIds with
  | nil => rfl
  | cons i rest ih =>
      rw [List.forall_mem_cons] at known new
      obtain ⟨fresh, distinct⟩ := List.nodup_cons.mp distinct
      have collected : collectGroupBlocks (manyNode i) ⟨[], nodeIds⟩ =
          .ok ⟨[manyId 'b' i], manyId 'n' i :: nodeIds⟩ := by
        have visible : isBlank (manyId 'n' i) = false := isBlank_manyId i (by decide)
        rw [manyNode, collectGroupBlocks]
        refine (ok_bind (refuseIf_of_not ?_) _).trans ?_
        · simp [visible, new.1]
        refine (ok_bind (refuseIf_of_not (by simp)) _).trans ?_
        rfl
      have provenance : validateNodeProvenance blocks (manyNode i) = .ok () := by
        have own := @validateProvenanceSpans_ok blocks unique [manyBlock i]
          (by simpa using known.1)
        exact (validateNodeProvenance_eq (manyNode i)).trans ((ok_bind own _).trans rfl)
      have later := @ih (manyId 'n' i :: nodeIds) known.2 distinct (by
        intro j mem inside
        rcases List.mem_cons.mp inside with same | earlier
        · exact fresh (manyId_injective 'n' same ▸ mem)
        · exact new.2 j mem earlier)
      rw [List.map_cons, collectGroups]
      refine (ok_bind collected _).trans ?_
      refine (ok_bind provenance _).trans ?_
      exact (ok_bind later _).trans rfl

theorem validateInputs_many (n : Nat) :
    validateInputs (manyNormalized n) (manyStructured n) = .ok (manyInputs n) := by
  have distinct := @List.nodup_range n
  have collected : collectPages 0 [] [(manyPage n, ⟨1, [], false⟩)] =
      .ok ((List.range n).map manyBlock) := by
    have page := @collectBlocks_many [] (List.range n) n distinct
    rw [collectPages]
    refine (ok_bind (okOrElse_some 1) _).trans ?_
    refine (ok_bind (refuseIf_of_not (by simp [manyPage])) _).trans ?_
    exact (ok_bind page _).trans rfl
  have grouped := @collectGroups_many ((List.range n).map manyBlock) (List.range n) ["root"]
    (manyBlocks_nodup distinct) (fun i mem => List.mem_map_of_mem mem) distinct (by
      intro i _ inside
      have first := congrArg (fun text : String => text.toList.head?) (List.mem_singleton.mp inside)
      simp [manyId, List.replicate_succ] at first)
  unfold validateInputs
  refine (ok_bind (refuseIf_of_not ?_) _).trans ?_
  · show ¬ (isBlank "doc" = true ∨ isBlank "1.0.0" = true ∨ "doc" ≠ "doc" ∨ isBlank "1.0.0" = true)
    decide
  refine (ok_bind (refuseIf_of_not fun different => different rfl) _).trans ?_
  refine (ok_bind collected _).trans ?_
  refine (ok_bind (refuseIf_of_not fun different => different rfl) _).trans ?_
  refine (ok_bind (okOrElse_some _) _).trans ?_
  refine (ok_bind (refuseIf_of_not (by simp)) _).trans ?_
  refine (ok_bind grouped _).trans ?_
  refine (ok_bind (refuseIf_of_not ?_) _).trans rfl
  simp only [List.flatMap_map, List.map_map, not_not]
  exact (List.map_eq_flatMap).symm

theorem length_le_parts {inputs : ChunkInputs} {groups : List StructureGroup}
    {parts : StructureGroup → List (List NormalizedBlock)}
    (divided : ∀ group ∈ groups, Divides inputs group (parts group))
    (nonempty : ∀ group ∈ groups, group.blockIds ≠ []) :
    groups.length ≤ (groups.flatMap parts).length := by
  induction groups with
  | nil => exact Nat.le_refl _
  | cons group rest ih =>
      rw [List.forall_mem_cons] at divided nonempty
      have others := ih divided.2 nonempty.2
      have some_part : parts group ≠ [] := by
        intro none
        have blocks := divided.1.blocks
        rw [none] at blocks
        exact nonempty.1 blocks.symm
      have positive := List.length_pos_iff.mpr some_part
      simp only [List.length_cons, List.flatMap_cons, List.length_append]
      omega

theorem chunk_many {platform : TextPlatform} {n : Nat} (many : u32Max < n) :
    chunk platform (manyNormalized n) (manyStructured n) = .error chunkCountExceeded := by
  have accepts := validateInputs_many n
  have accepted := accepted_of_validateInputs accepts
  obtain ⟨divided, -⟩ := divides_all accepted accepted.covered fun _ mem => mem
  rw [List.forall₂_map_right_iff, List.forall₂_same] at divided
  have parts := length_le_parts divided (by
    intro group mem
    obtain ⟨i, -, rfl⟩ := List.mem_map.mp mem
    exact nofun)
  have count : (manyInputs n).groups.length = n := by
    simp only [manyInputs, List.length_map, List.length_range]
  apply chunk_exceeds accepts
  simp only [allParts, List.length_flatMap, List.length_map] at parts ⊢
  omega

theorem too_many_groups_fail :
    ¬ ∀ platform : TextPlatform, Function.Injective platform.sha256Hex →
      ∀ normalized structured inputs, validateInputs normalized structured = .ok inputs →
        ∃ chunked, chunk platform normalized structured = .ok chunked := by
  intro claim
  have fails := @chunk_many sectionPlatform (u32Max + 1) (Nat.lt_succ_self u32Max)
  have accepts := validateInputs_many (u32Max + 1)
  generalize u32Max + 1 = n at fails accepts
  obtain ⟨chunked, succeeds⟩ := claim sectionPlatform sectionPlatform_injective _ _ _ accepts
  rw [fails] at succeeds
  cases succeeds

end DocumentSummarizer.Pipeline
