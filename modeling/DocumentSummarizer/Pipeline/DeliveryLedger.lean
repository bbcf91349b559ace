import DocumentSummarizer.Pipeline.DirectDelivery
import DocumentSummarizer.Pipeline.EvidenceResponses

/-! # The ledger of direct delivery

The bytes that the analysis projects are the bytes that the rendered claims take,
in any order, and less is rendered when claims are removed.
-/

namespace DocumentSummarizer.Pipeline

open Library

/-! ## Bytes -/

/-- The bytes of lines and of the blank lines between them. -/
def linesBytes (lines : List String) : Nat :=
  (lines.map String.utf8ByteSize).sum + 2 * (lines.length - 1)

def ledgerBytes (items : List EvidenceItem) : Nat :=
  linesBytes (items.map deliveryLine)

theorem utf8ByteSize_joined (lines : List String) :
    ("\n\n".intercalate lines).utf8ByteSize = linesBytes lines := by
  have gap : "\n\n".utf8ByteSize = 2 := rfl
  induction lines with
  | nil => rfl
  | cons line rest ih =>
      cases rest with
      | nil => simp [linesBytes]
      | cons next later =>
          rw [String.intercalate_cons_cons, String.utf8ByteSize_append,
            String.utf8ByteSize_append, ih, gap]
          simp only [linesBytes, List.map_cons, List.sum_cons, List.length_cons]
          omega

section Bytes

variable {items kept : List EvidenceItem}

theorem ledgerBytes_perm (h : items.Perm kept) : ledgerBytes items = ledgerBytes kept := by
  have lines := h.map deliveryLine
  rw [ledgerBytes, ledgerBytes, linesBytes, linesBytes, (lines.map _).sum_eq, lines.length_eq]

theorem ledgerBytes_sublist (h : kept.Sublist items) : ledgerBytes kept ≤ ledgerBytes items := by
  have lines := h.map deliveryLine
  have sizes := (lines.map String.utf8ByteSize).sum_le_sum fun _ _ => Nat.zero_le _
  have count := lines.length_le
  simp only [ledgerBytes, linesBytes]
  omega

theorem ledgerBytes_concat (item : EvidenceItem) :
    ledgerBytes (items ++ [item]) =
      ledgerBytes items + (if 0 < items.length then 2 else 0) +
        (deliveryLine item).utf8ByteSize := by
  simp only [ledgerBytes, linesBytes, List.map_append, List.sum_append, List.length_append,
    List.length_map, List.map_cons, List.map_nil, List.sum_cons, List.sum_nil, List.length_cons,
    List.length_nil]
  split <;> omega

end Bytes

/-! ## Identities -/

section Identities

variable {platform : TextPlatform} (injective : Function.Injective platform.sha256Hex)
  {documentId version : String}

include injective

theorem deterministicEvidenceId_injective {chunk chunk' : DocumentChunk} {index index' : Nat}
    {blockId blockId' claim claim' quote quote' : String}
    (plain : '\x00' ∉ chunk.chunkId.toList) (plain' : '\x00' ∉ chunk'.chunkId.toList)
    (h : deterministicEvidenceId platform version chunk documentId index blockId claim quote =
      deterministicEvidenceId platform version chunk' documentId index' blockId' claim' quote') :
    chunk.chunkId = chunk'.chunkId ∧ index = index' := by
  have parts :=
    separated_cons_cancel (separated_cons_cancel (deterministicId_separated injective h))
  obtain ⟨chunks, parts⟩ := separated_cons_inj plain plain' parts
  obtain ⟨indices, -⟩ := separated_cons_inj (toString_plain _) (toString_plain _) parts
  exact ⟨chunks, Nat.repr_injective indices⟩

theorem deterministicClaimId_injective {index index' : Nat} {text text' : String}
    {evidenceIds evidenceIds' : List String}
    (h : deterministicClaimId platform documentId version index text evidenceIds =
      deterministicClaimId platform documentId version index' text' evidenceIds') :
    index = index' := by
  have parts :=
    separated_cons_cancel (separated_cons_cancel (deterministicId_separated injective h))
  exact Nat.repr_injective (separated_cons_inj (toString_plain _) (toString_plain _) parts).1

end Identities

/-- The evidence of a chunk is numbered in its order. -/
def Numbered (platform : TextPlatform) (documentId : String) (chunk : DocumentChunk)
    (analysis : ChunkAnalysis) : Prop :=
  ∀ index item, analysis.evidence[index]? = some item → item.evidenceId =
    deterministicEvidenceId platform analysisVersion chunk documentId index item.blockId
      item.claimText item.exactQuote

section Numbering

variable {platform : TextPlatform} {documentId : String} {chunk : DocumentChunk}
  {analysis : ChunkAnalysis}

theorem Numbered.concat (h : Numbered platform documentId chunk analysis) {item : EvidenceItem}
    (id : item.evidenceId = deterministicEvidenceId platform analysisVersion chunk documentId
      analysis.evidence.length item.blockId item.claimText item.exactQuote) :
    Numbered platform documentId chunk
      { analysis with evidence := analysis.evidence ++ [item] } := by
  intro index other found
  rcases Nat.lt_trichotomy index analysis.evidence.length with inside | rfl | outside
  · exact h index other (by rwa [List.getElem?_append_left inside] at found)
  · rw [List.getElem?_concat_length] at found
    obtain rfl := Option.some.inj found
    exact id
  · rw [List.getElem?_append_right outside.le] at found
    have beyond : [item][index - analysis.evidence.length]? = none := by
      rw [List.getElem?_eq_none_iff, List.length_singleton]
      omega
    rw [beyond] at found
    cases found

variable (injective : Function.Injective platform.sha256Hex)

include injective

theorem Numbered.nodup (h : Numbered platform documentId chunk analysis)
    (plain : '\x00' ∉ chunk.chunkId.toList) : (analysis.evidence.map (·.evidenceId)).Nodup := by
  rw [List.nodup_iff_pairwise_ne, List.pairwise_map, List.pairwise_iff_getElem]
  intro i j hi hj less same
  rw [h i _ (List.getElem?_eq_getElem hi), h j _ (List.getElem?_eq_getElem hj)] at same
  exact absurd (deterministicEvidenceId_injective injective plain plain same).2 less.ne

theorem numbered_nodup {chunks : List DocumentChunk} {analyses : List ChunkAnalysis}
    (h : List.Forall₂ (Numbered platform documentId) chunks analyses)
    (distinct : (chunks.map (·.chunkId)).Nodup)
    (plain : ∀ chunk ∈ chunks, '\x00' ∉ chunk.chunkId.toList) :
    ((analyses.flatMap (·.evidence)).map (·.evidenceId)).Nodup := by
  induction h with
  | nil => exact List.nodup_nil
  | @cons chunk analysis chunks analyses first others ih =>
      obtain ⟨new, distinct⟩ := List.nodup_cons.mp distinct
      rw [List.forall_mem_cons] at plain
      rw [List.flatMap_cons, List.map_append, List.nodup_append]
      refine ⟨first.nodup injective plain.1, ih distinct plain.2, ?_⟩
      intro id here id' there same
      obtain ⟨item, mem, rfl⟩ := List.mem_map.mp here
      obtain ⟨item', mem', rfl⟩ := List.mem_map.mp there
      obtain ⟨other, other_mem, inside⟩ := List.mem_flatMap.mp mem'
      obtain ⟨chunk', chunk_mem, numbered⟩ := forall₂_right_exists others other_mem
      obtain ⟨i, found⟩ := List.getElem?_of_mem mem
      obtain ⟨j, found'⟩ := List.getElem?_of_mem inside
      rw [first i item found, numbered j item' found'] at same
      have chunks_same := (deterministicEvidenceId_injective injective plain.1
        (plain.2 chunk' chunk_mem) same).1
      exact new (List.mem_map.mpr ⟨chunk', chunk_mem, chunks_same.symm⟩)

end Numbering

/-! ## The loop -/

/-- What every pass of the analysis keeps: numbered evidence, its count, the bytes that it will
be rendered as, and the ceiling. -/
structure Ledger (platform : TextPlatform) (chunked : ChunkedDocument)
    (deliveryPolicy : Option SummaryDeliveryPolicy) (pass : AnalysisPass) : Prop where
  documentId : pass.analyzed.documentId = chunked.documentId
  numbered : List.Forall₂ (Numbered platform chunked.documentId) chunked.chunks
    pass.analyzed.chunks
  count : pass.count = pass.analyzed.evidence.length
  projected : pass.projectedDeliveryBytes = ledgerBytes pass.analyzed.evidence
  ceiling : ∀ policy ∈ deliveryPolicy, pass.projectedDeliveryBytes ≤ policy.maxSummaryTextBytes

section Loop

variable {platform : TextPlatform} {tables : SentenceTables} {runtime : AnalysisRuntime}
  {chunked : ChunkedDocument} {normalized : NormalizedDocument}
  {deliveryPolicy : Option SummaryDeliveryPolicy} {pass next : AnalysisPass}

theorem Ledger.initial : Ledger platform chunked deliveryPolicy (initialPass runtime chunked) := by
  have none : (initialPass runtime chunked).analyzed.evidence = [] := by
    simp [initialPass, AnalyzedDocument.evidence, List.flatMap_map]
  refine ⟨rfl, ?_, by rw [none]; rfl, by rw [none]; rfl, fun _ _ => Nat.zero_le _⟩
  show List.Forall₂ _ chunked.chunks (chunked.chunks.map _)
  rw [List.forall₂_map_right_iff, List.forall₂_same]
  intro chunk _ index item found
  cases found

/-- What inspecting a page, noting an omission and truncating leave of a pass. -/
theorem Ledger.of_same (h : Ledger platform chunked deliveryPolicy pass)
    (documentId : next.analyzed.documentId = pass.analyzed.documentId)
    (chunks : next.analyzed.chunks = pass.analyzed.chunks) (count : next.count = pass.count)
    (bytes : next.projectedDeliveryBytes = pass.projectedDeliveryBytes) :
    Ledger platform chunked deliveryPolicy next := by
  have same : next.analyzed.evidence = pass.analyzed.evidence := by
    rw [AnalyzedDocument.evidence, chunks]
    rfl
  constructor
  · rw [documentId, h.documentId]
  · rw [chunks]
    exact h.numbered
  · rw [count, same, h.count]
  · rw [bytes, same, h.projected]
  · rw [bytes]
    exact h.ceiling

theorem inspected_same {page omittedSourceUnits : Nat}
    (h : pass.inspected page omittedSourceUnits = .ok next) :
    next.analyzed.documentId = pass.analyzed.documentId ∧
      next.analyzed.chunks = pass.analyzed.chunks ∧
      next.analyzed.omissions = pass.analyzed.omissions ∧ next.count = pass.count ∧
      next.projectedDeliveryBytes = pass.projectedDeliveryBytes := by
  unfold AnalysisPass.inspected at h
  dsimp only at h
  split at h
  · simp only [peel_ok, return_ok] at h
    obtain ⟨_, -, rfl⟩ := h
    exact ⟨rfl, rfl, rfl, rfl, rfl⟩
  · obtain rfl := return_ok.mp h
    exact ⟨rfl, rfl, rfl, rfl, rfl⟩

theorem Ledger.inspected {page omittedSourceUnits : Nat}
    (h : Ledger platform chunked deliveryPolicy pass)
    (ok : pass.inspected page omittedSourceUnits = .ok next) :
    Ledger platform chunked deliveryPolicy next := by
  obtain ⟨documentId, chunks, -, count, bytes⟩ := inspected_same ok
  exact h.of_same documentId chunks count bytes

theorem stopForDelivery_ok (h : stopForDelivery normalized pass = .ok next) :
    next = pass.truncate := by
  simp only [stopForDelivery, peel_ok, return_ok] at h
  obtain ⟨_, -, _, -, rfl⟩ := h
  rfl

/-- The evidence of an answered page is one item, numbered behind the evidence of its chunk. -/
theorem materialize_ok {chunkIndex : Nat} {scope : AnalysisScope}
    {response : Option RawEvidenceResponse} {materialized : List EvidenceItem}
    (h : materialize platform tables chunked normalized pass chunkIndex scope response =
      .ok materialized) :
    ∃ chunk analysis item, chunked.chunks[chunkIndex]? = some chunk ∧
      pass.analyzed.chunks[chunkIndex]? = some analysis ∧ materialized = [item] ∧
      item.evidenceId = deterministicEvidenceId platform analysisVersion chunk chunked.documentId
        analysis.evidence.length item.blockId item.claimText item.exactQuote := by
  simp only [materialize, peel_ok, indexed_eq_ok] at h
  obtain ⟨chunk, own, analysis, slot, parsed⟩ := h
  obtain ⟨_, item, -, rfl, made, -⟩ := parseEvidenceResponse_ok parsed
  exact ⟨chunk, analysis, item, own, slot, rfl, made.evidenceId⟩

theorem evidence_modify {analyses : List ChunkAnalysis} {chunkIndex : Nat}
    {analysis : ChunkAnalysis} (found : analyses[chunkIndex]? = some analysis)
    (item : EvidenceItem) :
    ((analyses.modify chunkIndex fun chunk =>
      { chunk with evidence := chunk.evidence ++ [item] }).flatMap (·.evidence)).Perm
      (analyses.flatMap (·.evidence) ++ [item]) := by
  induction analyses generalizing chunkIndex with
  | nil => cases found
  | cons first rest ih =>
      cases chunkIndex with
      | zero =>
          rw [List.modify_zero_cons, List.flatMap_cons, List.flatMap_cons, List.append_assoc,
            List.append_assoc]
          exact List.perm_append_comm.append_left _
      | succ chunkIndex =>
          rw [List.modify_succ_cons, List.flatMap_cons, List.flatMap_cons, List.append_assoc]
          exact (ih found).append_left _

theorem numbered_modify {chunks : List DocumentChunk} {analyses : List ChunkAnalysis}
    {documentId : String} {chunkIndex : Nat} {chunk : DocumentChunk} {analysis : ChunkAnalysis}
    {item : EvidenceItem} (h : List.Forall₂ (Numbered platform documentId) chunks analyses)
    (own : chunks[chunkIndex]? = some chunk) (slot : analyses[chunkIndex]? = some analysis)
    (id : item.evidenceId = deterministicEvidenceId platform analysisVersion chunk documentId
      analysis.evidence.length item.blockId item.claimText item.exactQuote) :
    List.Forall₂ (Numbered platform documentId) chunks
      (analyses.modify chunkIndex fun chunk =>
        { chunk with evidence := chunk.evidence ++ [item] }) := by
  induction h generalizing chunkIndex with
  | nil => cases own
  | cons first others ih =>
      cases chunkIndex with
      | zero =>
          obtain rfl := Option.some.inj own
          obtain rfl := Option.some.inj slot
          rw [List.modify_zero_cons]
          exact .cons (first.concat id) others
      | succ chunkIndex =>
          rw [List.modify_succ_cons]
          exact .cons first (ih own slot)

theorem projectedWith_eq {line : String} {projected : Nat}
    (h : pass.projectedWith line = some projected) :
    projected = pass.projectedDeliveryBytes + (if 0 < pass.count then 2 else 0) +
      line.utf8ByteSize := by
  have added : ∀ {a b c : Nat}, checkedAdd a b = some c → c = a + b := by
    intro a b c sum
    unfold checkedAdd at sum
    split at sum
    · exact (Option.some.inj sum).symm
    · cases sum
  obtain ⟨gap, first, second⟩ := Option.bind_eq_some_iff.mp h
  rw [added second, added first]

/-- A claim within the ceiling extends the ledger. -/
theorem Ledger.retain (h : Ledger platform chunked deliveryPolicy pass) {chunkIndex : Nat}
    {chunk : DocumentChunk} {analysis : ChunkAnalysis} {item : EvidenceItem} {projected : Nat}
    (own : chunked.chunks[chunkIndex]? = some chunk)
    (slot : pass.analyzed.chunks[chunkIndex]? = some analysis)
    (id : item.evidenceId = deterministicEvidenceId platform analysisVersion chunk
      chunked.documentId analysis.evidence.length item.blockId item.claimText item.exactQuote)
    (grown : pass.projectedWith (deliveryLine item) = some projected)
    (within : ∀ policy ∈ deliveryPolicy, projected ≤ policy.maxSummaryTextBytes) :
    Ledger platform chunked deliveryPolicy (pass.retain chunkIndex [item] projected) := by
  have more : (pass.retain chunkIndex [item] projected).analyzed.evidence.Perm
      (pass.analyzed.evidence ++ [item]) := evidence_modify slot item
  constructor
  · exact h.documentId
  · exact numbered_modify h.numbered own slot id
  · rw [more.length_eq, List.length_append, List.length_singleton, ← h.count]
    rfl
  · show projected = _
    rw [ledgerBytes_perm more, ledgerBytes_concat, ← h.count, ← h.projected,
      projectedWith_eq grown]
  · exact within

theorem analyzePages_ledger {target : Nat} {plan : List Nat}
    (h : Ledger platform chunked deliveryPolicy pass)
    (run : analyzePages platform tables runtime chunked normalized deliveryPolicy target plan pass =
      .ok next) : Ledger platform chunked deliveryPolicy next ∧
        (pass.count ≤ target → next.count ≤ target) := by
  induction plan generalizing pass with
  | nil =>
      obtain rfl := Except.ok.inj run
      exact ⟨h, id⟩
  | cons page rest ih =>
      unfold analyzePages at run
      split at run
      · obtain rfl := Except.ok.inj run
        exact ⟨h, id⟩
      next below =>
      simp only [peel_ok, propagate, mapError_ok_iff] at run
      obtain ⟨_, -, noted, seen, outcome, -, run⟩ := run
      have ledger := h.inspected seen
      have same := (inspected_same seen).2.2.2.1
      cases outcome with
      | omitted omission =>
          have kept : Ledger platform chunked deliveryPolicy (noted.withOmission omission) :=
            ledger.of_same rfl rfl rfl rfl
          obtain ⟨last, bound⟩ := ih kept run
          exact ⟨last, fun inside => bound (same.trans_le inside)⟩
      | answered chunkIndex scope response =>
          simp only [peel_ok, okOrElse_eq_ok] at run
          obtain ⟨materialized, made, item, first, projected, grown, run⟩ := run
          obtain ⟨chunk, analysis, only, own, slot, rfl, id⟩ := materialize_ok made
          obtain rfl := Option.some.inj first
          split at run
          next =>
            rw [mapError_ok_iff] at run
            obtain rfl := stopForDelivery_ok run
            exact ⟨ledger.of_same rfl rfl rfl rfl, fun inside => same.trans_le inside⟩
          next within =>
            have ceiling : ∀ policy ∈ deliveryPolicy, projected ≤ policy.maxSummaryTextBytes := by
              intro policy mem
              rw [Option.mem_def] at mem
              simpa [mem] using within
            obtain ⟨last, bound⟩ := ih (ledger.retain own slot id grown ceiling) run
            refine ⟨last, fun inside => bound ?_⟩
            show noted.count + 1 ≤ target
            omega

end Loop

end DocumentSummarizer.Pipeline
