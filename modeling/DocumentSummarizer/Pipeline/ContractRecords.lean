import DocumentSummarizer.Pipeline.ContractIdentities
import DocumentSummarizer.Pipeline.KeyTermSelection

/-! # Copied records

Behind the boundary of the chunk stage the records of a contract exist, and copy
the source ranges of its clauses.
-/

namespace DocumentSummarizer.Pipeline

open Library Furniture

/-! ## The boundary -/

section Boundary

variable {normalized : NormalizedDocument} {chunked : ChunkedDocument}

theorem boundaryBlocks_ok {pageNumber : Nat} {seen all : List String}
    {blocks : List NormalizedBlock} (h : boundaryBlocks pageNumber seen blocks = .ok all)
    (distinct : seen.Nodup) :
    all.Nodup ∧ all = (blocks.map (·.blockId)).reverse ++ seen := by
  induction blocks generalizing seen with
  | nil =>
      obtain rfl := Except.ok.inj h
      exact ⟨distinct, rfl⟩
  | cons block rest ih =>
      simp only [boundaryBlocks, peel_ok, refuseIf_eq_ok, not_or] at h
      obtain ⟨_, fresh, later⟩ := h
      obtain ⟨nodup, rfl⟩ := ih later (List.nodup_cons.mpr ⟨fresh.2.2.2.2, distinct⟩)
      exact ⟨nodup, by simp⟩

theorem boundaryPages_ok {pages : List NormalizedPage} {first : Nat} {seen all : List String}
    (h : boundaryPages seen (pages.zipIdx first) = .ok all) (distinct : seen.Nodup) :
    ((pages.flatMap (·.content)).map (·.blockId) ++ seen).Nodup ∧
      pages.map (·.pageNumber) = List.range' (first + 1) pages.length := by
  induction pages generalizing first seen with
  | nil => exact ⟨distinct, rfl⟩
  | cons page rest ih =>
      simp only [List.zipIdx_cons, boundaryPages, peel_ok, okOrElse_eq_ok, refuseIf_eq_ok,
        not_not] at h
      obtain ⟨expected, bounded, _, number, inner, blocks, later⟩ := h
      obtain ⟨nodup, rfl⟩ := boundaryBlocks_ok blocks distinct
      obtain ⟨tail, numbers⟩ := ih later nodup
      have own : expected = first + 1 := by
        unfold toU32 at bounded
        split at bounded
        · exact (Option.some.inj bounded).symm
        · cases bounded
      constructor
      · apply (List.Perm.nodup_iff ?_).mp tail
        rw [List.flatMap_cons, List.map_append, ← List.append_assoc]
        apply List.Perm.append_right
        apply List.perm_append_comm.trans
        exact (List.reverse_perm _).append_right _
      · rw [List.map_cons, numbers, List.length_cons, List.range'_succ, number, own]

theorem identified_of_boundary
    (h : validateNormalizedChunkBoundary normalized chunked = .ok ()) :
    normalized.Identified := by
  simp only [validateNormalizedChunkBoundary, peel_ok] at h
  obtain ⟨_, -, all, pages, -⟩ := h
  obtain ⟨distinct, numbers⟩ := boundaryPages_ok pages List.nodup_nil
  rw [List.append_nil] at distinct
  constructor
  · rw [numbers]
    exact List.pairwise_lt_range'
  · exact distinct

theorem chunk_of_boundary (h : validateNormalizedChunkBoundary normalized chunked = .ok ())
    {block : NormalizedBlock} (mem : block ∈ normalized.blocks) :
    ∃ chunk ∈ chunked.chunks, block.blockId ∈ chunk.blockIds := by
  simp only [validateNormalizedChunkBoundary, peel_ok, refuseIf_eq_ok, not_not] at h
  obtain ⟨_, -, _, -, order, collected, same⟩ := h
  have inside : block.blockId ∈ order.flatten := by
    rw [same]
    exact List.mem_map_of_mem mem
  obtain ⟨ids, ids_mem, id_mem⟩ := List.mem_flatten.mp inside
  obtain ⟨chunk, chunk_mem, checked⟩ := forall₂_right_exists (mapM_ok_iff.mp collected) ids_mem
  refine ⟨chunk, chunk_mem, ?_⟩
  simp only [boundaryChunk, peel_ok, return_ok] at checked
  obtain ⟨blocks, read, _, -, rfl⟩ := checked
  obtain ⟨pair, pair_mem, own_id⟩ := List.mem_map.mp id_mem
  obtain ⟨source, source_mem, own⟩ := forall₂_right_exists (mapM_ok_iff.mp read) pair_mem
  simp only [peel_ok, return_ok] at own
  obtain ⟨_, -, _, -, rfl⟩ := own
  exact own_id ▸ (List.of_mem_zip source_mem).1

end Boundary

/-! ## Records -/

/-- The evidence quotes exactly the fragment, with its block's provenance and chunk. -/
structure Cites (platform : TextPlatform) (chunked : ChunkedDocument)
    (normalized : NormalizedDocument) (fragment : SourceFragment) (item : EvidenceItem) :
    Prop where
  blockId : item.blockId = fragment.blockId
  quote : normalized.slice fragment = some item.exactQuote.toList
  claim : item.claimText = item.exactQuote
  span : (normalized.findBlock fragment.blockId).map (·.source) = some item.sourceSpan
  chunk : ∃ chunk ∈ chunked.chunks, fragment.blockId ∈ chunk.blockIds ∧
    item.chunkId = chunk.chunkId
  evidenceId : item.evidenceId =
    sourceEvidenceId platform normalized item.chunkId fragment item.exactQuote

/-- The record copies a clause: its text, its heading, and evidence for each fragment. -/
structure Copies (platform : TextPlatform) (chunked : ChunkedDocument)
    (normalized : NormalizedDocument) (source : SourceClause × Nat)
    (record : ExtractedContractClause × List EvidenceItem) : Prop where
  evidence : List.Forall₂ (Cites platform chunked normalized) source.1.fragments record.2
  evidenceIds : record.1.evidenceIds = record.2.map (·.evidenceId)
  text : clauseText normalized source.1 = some record.1.text.toList
  heading : record.1.heading = source.1.headings.head?.map String.ofList
  clauseId : record.1.clauseId = clauseIdentity platform normalized source.2 record.1.text

section Records

variable {platform : TextPlatform} {unicode : Unicode} {normalized : NormalizedDocument}
  {chunked : ChunkedDocument} {fragment : SourceFragment}

theorem fragmentEvidence_spec
    (boundary : validateNormalizedChunkBoundary normalized chunked = .ok ())
    {text : List Char} (sliced : normalized.slice fragment = some text) :
    ∃ item, fragmentEvidence platform chunked normalized fragment = .ok item ∧
      Cites platform chunked normalized fragment item := by
  obtain ⟨block, found, part⟩ := slice_eq_some.mp sliced
  obtain ⟨block_mem, own⟩ := findBlock_spec found
  obtain ⟨other, other_mem, shared⟩ := chunk_of_boundary boundary block_mem
  rw [own] at shared
  obtain ⟨chunk, hit⟩ : ∃ chunk,
      chunked.chunks.find? (fragment.blockId ∈ ·.blockIds) = some chunk := by
    apply Option.isSome_iff_exists.mp
    rw [List.find?_isSome]
    exact ⟨other, other_mem, decide_eq_true shared⟩
  have listed : fragment.blockId ∈ chunk.blockIds := of_decide_eq_true (List.find?_some hit :)
  have computed : fragmentEvidence platform chunked normalized fragment = .ok
      ⟨sourceEvidenceId platform normalized chunk.chunkId fragment (String.ofList text),
        chunk.chunkId, fragment.blockId, String.ofList text, String.ofList text, block.source⟩ := by
    rw [fragmentEvidence, found, ok_bind (okOrElse_some _), hit, ok_bind (okOrElse_some _), part,
      ok_bind (okOrElse_some _)]
    rfl
  exact ⟨_, computed, {
    blockId := rfl
    quote := by rw [sliced, String.toList_ofList]
    claim := rfl
    span := by rw [found, Option.map_some]
    chunk := ⟨chunk, List.mem_of_find?_eq_some hit, listed, rfl⟩
    evidenceId := rfl }⟩

theorem mapM_ok_exists {ε α β : Type} {R : α → β → Prop} {f : α → Except ε β} {as : List α}
    (each : ∀ a ∈ as, ∃ b, f a = .ok b ∧ R a b) :
    ∃ bs, as.mapM f = .ok bs ∧ List.Forall₂ R as bs := by
  obtain ⟨bs, all⟩ := exists_forall₂_iff.mpr each
  exact ⟨bs, mapM_ok_iff.mpr (all.imp fun _ _ h => h.1), all.imp fun _ _ h => h.2⟩

theorem clauseRecord_spec
    (boundary : validateNormalizedChunkBoundary normalized chunked = .ok ())
    {clause : SourceClause} (ordinal : Nat)
    (ranges : ∀ fragment ∈ clause.fragments, ∃ text, normalized.slice fragment = some text) :
    ∃ record, clauseRecord platform chunked normalized clause ordinal = .ok record ∧
      Copies platform chunked normalized (clause, ordinal) record := by
  obtain ⟨evidence, collected, cites⟩ := mapM_ok_exists
    (f := fragmentEvidence platform chunked normalized)
    (R := Cites platform chunked normalized) fun fragment mem =>
      fragmentEvidence_spec boundary (ranges fragment mem).choose_spec
  obtain ⟨texts, read⟩ := mapM_exists (f := normalized.slice) ranges
  obtain ⟨whole, text⟩ : ∃ whole, clauseText normalized clause = some whole :=
    ⟨_, by rw [clauseText, read, Option.map_some]⟩
  have computed : clauseRecord platform chunked normalized clause ordinal = .ok
      (⟨clauseIdentity platform normalized ordinal (String.ofList whole),
        clause.headings.head?.map String.ofList, String.ofList whole,
        evidence.map (·.evidenceId)⟩, evidence) := by
    rw [clauseRecord, collected, text]
    rfl
  exact ⟨_, computed, {
    evidence := cites
    evidenceIds := rfl
    text := by rw [text, String.toList_ofList]
    heading := rfl
    clauseId := rfl }⟩

theorem slice_of_covers {fragments : List SourceFragment} {lines : List SourceLine}
    (cover : Covers normalized fragments lines) (mem : fragment ∈ fragments) :
    ∃ text, normalized.slice fragment = some text := by
  obtain ⟨groups, -, shown⟩ := cover
  obtain ⟨group, -, shows⟩ := forall₂_left_exists shown mem
  obtain ⟨text, sliced, -⟩ := shows.exact_
  exact ⟨text, sliced⟩

theorem selectKeyTerms_spec {sources : List SourceClause}
    {clauses : List ExtractedContractClause} (nested : Nested (framesOf sources))
    (long : clauses.length = sources.length)
    (texts : ∀ source ∈ sources, ∃ text, clauseText normalized source = some text) :
    ∃ terms, selectKeyTerms unicode normalized sources clauses = some terms ∧
      terms.map (·.category) = ContractTermCategory.all ∧
      ∀ term ∈ terms, FaithfulTerm sources clauses term := by
  have each := @keyTerm_spec sources clauses unicode normalized nested long texts
  obtain ⟨terms, selected⟩ := @mapM_exists _ _ _ ContractTermCategory.all
    fun category _ => ⟨_, (each category).choose_spec.1⟩
  refine ⟨terms, selected, ?_, ?_⟩
  · rw [← List.map_id ContractTermCategory.all]
    apply mapM_some_map selected
    intro category _ term found
    obtain ⟨own, computed, same, -⟩ := each category
    rw [computed, Option.some.injEq] at found
    exact found ▸ same
  · intro term mem
    obtain ⟨category, -, found⟩ := mapM_mem selected mem
    obtain ⟨own, computed, -, faithful⟩ := each category
    rw [computed, Option.some.injEq] at found
    exact found ▸ faithful

/-- The records of a contract: what they copy, and the key terms they select. -/
structure Extracts (platform : TextPlatform) (chunked : ChunkedDocument)
    (normalized : NormalizedDocument) (sources : List SourceClause)
    (built : List (ExtractedContractClause × List EvidenceItem))
    (keyTerms : List ContractKeyTerm) : Prop where
  copies : List.Forall₂ (Copies platform chunked normalized) sources.zipIdx built
  categories : keyTerms.map (·.category) = ContractTermCategory.all
  terms : ∀ term ∈ keyTerms, FaithfulTerm sources (built.map (·.1)) term

theorem records_spec (platform : TextPlatform) (unicode : Unicode)
    (boundary : validateNormalizedChunkBoundary normalized chunked = .ok ())
    {version : String} {policy : FurniturePolicy}
    (supported : contractFurniturePolicy version = .ok policy) :
    ∃ sources, contractSources unicode normalized policy (contractGrammar version) =
        some sources ∧
      (sources = [] → records platform unicode chunked normalized version =
        .error (.failure invalidContractExtraction)) ∧
      (sources ≠ [] → ∃ built keyTerms, records platform unicode chunked normalized version =
        .ok (⟨built.map (·.1), keyTerms⟩, built.flatMap (·.2)) ∧
        Extracts platform chunked normalized sources built keyTerms) := by
  obtain ⟨furniture, scan, -, cut, invariant, -⟩ := contractSources_spec unicode
    (identified_of_boundary boundary) policy (contractGrammar version)
  have ranges : ∀ source ∈ scan.clauses, ∀ fragment ∈ source.fragments,
      ∃ text, normalized.slice fragment = some text :=
    fun source source_mem fragment mem =>
      slice_of_covers invariant.cover (List.mem_flatMap.mpr ⟨source, source_mem, mem⟩)
  have each : ∀ pair ∈ scan.clauses.zipIdx, ∃ record,
      clauseRecord platform chunked normalized pair.1 pair.2 = .ok record ∧
        Copies platform chunked normalized pair record := by
    intro pair mem
    exact clauseRecord_spec boundary pair.2 (ranges pair.1 (List.fst_mem_of_mem_zipIdx mem))
  obtain ⟨built, collected, copies⟩ := mapM_ok_exists each
  have long : (built.map (·.1)).length = scan.clauses.length := by
    rw [List.length_map, ← copies.length_eq, List.length_zipIdx]
  have texts : ∀ source ∈ scan.clauses, ∃ text, clauseText normalized source = some text := by
    intro source mem
    obtain ⟨texts, read⟩ := mapM_exists (f := normalized.slice) (ranges source mem)
    exact ⟨_, by rw [clauseText, read, Option.map_some]⟩
  obtain ⟨terms, selected, categories, faithful⟩ :=
    @selectKeyTerms_spec unicode normalized scan.clauses (built.map (·.1)) invariant.nested long
      texts
  have opened : records platform unicode chunked normalized version =
      (do
        propagate (refuseIf (built = []) invalidContractExtraction)
        let keyTerms ← okOrElse
          (selectKeyTerms unicode normalized scan.clauses (built.map (·.1))) .panicked
        return (⟨built.map (·.1), keyTerms⟩, built.flatMap (·.2))) := by
    rw [records, boundary, supported]
    change ((okOrElse (contractSources unicode normalized policy (contractGrammar version))
      .panicked : Interruptible _) >>= _) = _
    rw [cut, ok_bind (okOrElse_some _)]
    exact ok_bind collected _
  refine ⟨scan.clauses, cut, ?_, ?_⟩
  · intro empty
    have nothing : built = [] := by
      rw [empty] at copies
      exact List.forall₂_nil_left_iff.mp copies
    rw [opened, nothing]
    rfl
  · intro nonempty
    have something : built ≠ [] := by
      rintro rfl
      exact nonempty (List.length_eq_zero_iff.mp long.symm)
    refine ⟨built, terms, ?_, ⟨copies, categories, faithful⟩⟩
    rw [opened, refuseIf_of_not something, selected]
    rfl

end Records

end DocumentSummarizer.Pipeline
