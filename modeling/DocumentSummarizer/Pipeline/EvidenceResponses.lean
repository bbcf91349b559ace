import DocumentSummarizer.Pipeline.Composition
import DocumentSummarizer.Pipeline.QuoteCatalogSafety

/-! # Evidence of a response

An accepted response is one item of evidence, and the evidence carries the
quotation, the block and the pages of a candidate of its scope.
-/

namespace DocumentSummarizer.Pipeline

open Library

/-- The evidence quotes one of the candidates, with the provenance of its block. -/
def QuotesCandidate (normalized : NormalizedDocument) (candidates : List AnalysisQuoteCandidate)
    (item : EvidenceItem) : Prop :=
  ∃ candidate ∈ candidates, item.exactQuote = candidate.exactQuote ∧
    item.blockId = candidate.blockId ∧
    (normalized.findBlock candidate.blockId).map (·.source) = some item.sourceSpan

/-- The evidence takes the claim of an item and is numbered behind the evidence of the chunk. -/
structure MaterializesAs (platform : TextPlatform) (version : String) (chunk : DocumentChunk)
    (documentId : String) (offset : Nat) (item : RawEvidenceItem × Nat) (made : EvidenceItem) :
    Prop where
  claimText : made.claimText = item.1.claimText
  chunkId : made.chunkId = chunk.chunkId
  evidenceId : made.evidenceId = deterministicEvidenceId platform version chunk documentId
    (offset + item.2) made.blockId made.claimText made.exactQuote

section Responses

variable {platform : TextPlatform} {version : String} {chunk : DocumentChunk}
  {normalized : NormalizedDocument} {documentId : String} {tables : SentenceTables}
  {candidates : List AnalysisQuoteCandidate} {offset : Nat} {evidence : List EvidenceItem}

theorem materializeItem_ok {pass next : EvidencePass} {item : RawEvidenceItem × Nat}
    (h : materializeItem platform version chunk normalized documentId candidates offset pass item =
      .ok next) :
    ∃ made, next.evidence = pass.evidence ++ [made] ∧
      MaterializesAs platform version chunk documentId offset item made ∧
      QuotesCandidate normalized candidates made := by
  simp only [materializeItem, peel_ok, okOrElse_eq_ok, return_ok] at h
  obtain ⟨_, -, candidate, selected, block, found, index, numbered, _, -, rfl⟩ := h
  have place : offset + item.2 = index := by
    unfold checkedAdd at numbered
    split at numbered
    · exact Option.some.inj numbered
    · cases numbered
  refine ⟨_, rfl, ⟨rfl, rfl, by rw [place]⟩, candidate, ?_, rfl, rfl, by rw [found]; rfl⟩
  exact List.mem_reverse.mp (List.mem_of_find?_eq_some selected)

theorem materializeItems_ok {items : List (RawEvidenceItem × Nat)} {pass last : EvidencePass}
    (h : items.foldlM (materializeItem platform version chunk normalized documentId candidates
      offset) pass = .ok last) :
    ∃ made, last.evidence = pass.evidence ++ made ∧
      List.Forall₂ (fun item evidence =>
        MaterializesAs platform version chunk documentId offset item evidence ∧
        QuotesCandidate normalized candidates evidence) items made := by
  induction items generalizing pass with
  | nil =>
      obtain rfl := return_ok.mp h
      exact ⟨[], (List.append_nil _).symm, .nil⟩
  | cons item rest ih =>
      rw [List.foldlM_cons, peel_ok] at h
      obtain ⟨next, here, later⟩ := h
      obtain ⟨first, grown, own, quotes⟩ := materializeItem_ok here
      obtain ⟨made, whole, all⟩ := ih later
      refine ⟨first :: made, ?_, .cons ⟨own, quotes⟩ all⟩
      rw [whole, grown, List.append_assoc]
      rfl

theorem parseEvidenceResponse_ok {raw : Option RawEvidenceResponse} {scope : AnalysisScope}
    (h : parseEvidenceResponse platform version chunk normalized tables documentId raw scope
      offset = .ok evidence) :
    ∃ answer item, raw = some ⟨[answer]⟩ ∧ evidence = [item] ∧
      MaterializesAs platform version chunk documentId offset (answer, 0) item ∧
      QuotesCandidate normalized scope.quoteCandidates item := by
  simp only [parseEvidenceResponse, peel_ok, okOrElse_eq_ok, return_ok, propagate,
    mapError_ok_iff, refuseIf_eq_ok, not_or, not_lt, ne_eq, not_not] at h
  obtain ⟨⟨answers⟩, rfl, _, counts, _, -, last, run, _, -, rfl⟩ := h
  obtain ⟨minimum, maximum, -, -, -, lower, upper⟩ := counts
  dsimp only at lower upper run
  obtain ⟨answer, rfl⟩ : ∃ answer, answers = [answer] := by
    apply List.length_eq_one_iff.mp
    omega
  obtain ⟨made, whole, all⟩ := materializeItems_ok run
  obtain ⟨item, rest, ⟨own, quotes⟩, none_left, rfl⟩ := List.forall₂_cons_left_iff.mp all
  obtain rfl := List.forall₂_nil_left_iff.mp none_left
  exact ⟨answer, item, rfl, whole, own, quotes⟩

end Responses

/-- Over every admitted scope every version derives a catalog that validates: its identities are
unique, its candidates are exact parts of the chunk's blocks and are all the segments of the
allowed ones, the blocks take turns, the catalog stays within the range of identities, and the one
item of evidence that a response yields quotes a candidate. -/
theorem quote_catalog_sound {platform : TextPlatform}
    (injective : Function.Injective platform.sha256Hex) (tables : SentenceTables)
    (version : String) {normalized : NormalizedDocument} {chunked : ChunkedDocument}
    (separable : Separable normalized chunked) {chunk : DocumentChunk}
    {allowedBlockIds : List String}
    (admitted : AdmittedScope normalized chunked chunk allowedBlockIds) :
    ∃ catalog, deriveAnalysisQuoteCatalogForBlocks platform version chunk normalized tables
        allowedBlockIds = .ok catalog ∧
      validateVersionedAnalysisQuoteCatalogForBlocks platform version chunk normalized tables
        allowedBlockIds catalog.candidates = .ok () ∧
      (catalog.candidates.map (·.selectionId)).Nodup ∧
      (catalog.candidates.map (·.fullIdentity)).Nodup ∧
      (∀ candidate ∈ catalog.candidates, CopiesBlock normalized chunk candidate) ∧
      (∀ blockId quote, (∃ candidate ∈ catalog.candidates,
          candidate.blockId = blockId ∧ candidate.exactQuote = quote) ↔
        blockId ∈ allowedBlockIds ∧ IsSegment tables version normalized blockId quote) ∧
      (∀ blockId ∈ allowedBlockIds, OffersSegment tables version normalized blockId →
        blockId ∈ catalog.candidates.map (·.blockId)) ∧
      TakesTurns (OffersSegment tables version normalized) allowedBlockIds catalog.candidates ∧
      catalog.candidates.length ≤ maxAnalysisSelections ∧
      ∀ documentId raw (scope : AnalysisScope) offset evidence,
        scope.quoteCandidates = catalog.candidates →
        parseEvidenceResponse platform version chunk normalized tables documentId raw scope
          offset = .ok evidence →
        evidence.length = 1 ∧ ∀ item ∈ evidence, ∃ candidate ∈ catalog.candidates,
          item.exactQuote = candidate.exactQuote ∧ item.blockId = candidate.blockId ∧
          item.sourceSpan.pageStart = candidate.pageNumber := by
  have plain : ∀ blockId ∈ allowedBlockIds, '\x00' ∉ blockId.toList := by
    intro blockId mem
    obtain ⟨block, found⟩ := admitted.known mem
    obtain ⟨block_mem, rfl⟩ := findBlock_spec found
    exact separable.blocks block block_mem
  obtain ⟨reads, read, derived⟩ := @derive_ok platform version chunk normalized chunked
    allowedBlockIds tables admitted
  have quotes : ∀ quotation ∈ offeredQuotations reads,
      Quotes normalized allowedBlockIds quotation :=
    fun quotation mem => reads_quote read (mem_firstsAfter.mp mem).1
  have copies : ∀ candidate ∈ candidatesFrom platform version chunk normalized 0
      (offeredQuotations reads), CopiesBlock normalized chunk candidate := by
    intro candidate mem
    obtain ⟨quotation, quotation_mem, _, -, rfl⟩ := mem_candidatesFrom mem
    obtain ⟨id_mem, block, found, -, -, part⟩ := quotes quotation quotation_mem
    refine ⟨admitted.inside _ id_mem, block, found, ?_, part⟩
    show normalized.blockPage quotation.1 = _
    rw [NormalizedDocument.blockPage, found]
    rfl
  refine ⟨_, derived, validate_derived injective plain admitted read derived rfl,
    candidatesFrom_selectionIds 0,
    candidatesFrom_fullIdentities injective (fun quotation mem => plain _ (quotes quotation mem).1)
      firstsAfter_nodup 0,
    copies, fun _ _ => represents_of_reads read, ?_, takesTurns_of_reads admitted.distinct read,
    ?_, ?_⟩
  · intro blockId id_mem offers
    obtain ⟨block, result, found, cut, some_segment⟩ := offers
    obtain ⟨segment, segment_mem⟩ := List.exists_mem_of_ne_nil _ some_segment
    rw [← String.toList_ofList (l := segment)] at segment_mem
    obtain ⟨candidate, mem, own, -⟩ := (represents_of_reads read).mpr
      ⟨id_mem, block, result, found, cut, segment_mem⟩
    exact List.mem_map.mpr ⟨candidate, mem, own⟩
  · rw [candidatesFrom_length]
    exact firstsAfter_length_le.trans (rounds_few admitted read)
  · intro documentId raw scope offset evidence same accepted
    obtain ⟨_, only, -, rfl, -, quoted⟩ := parseEvidenceResponse_ok accepted
    refine ⟨rfl, ?_⟩
    intro item mem
    obtain rfl := List.mem_singleton.mp mem
    rw [same] at quoted
    obtain ⟨candidate, candidate_mem, quote, own, span⟩ := quoted
    obtain ⟨-, block, found, page, -⟩ := copies candidate candidate_mem
    refine ⟨candidate, candidate_mem, quote, own, ?_⟩
    rw [found, Option.map_some] at span
    rw [page, ← Option.some.inj span]

/-! ## A document of two pages -/

def noticesParsed : ParsedDocument where
  documentId := "d"
  parserId := "pdf"
  parserVersion := "1"
  sourceType := .nativeText
  pages := [⟨1, "Rent is due monthly.", [], false⟩, ⟨2, "Notices are sent by mail.", [], false⟩]
  warnings := []

def dueBlock : String := "nb-9880ff89e98ffa5046bd8529eed88472f4814c39dcef21c0e399f84c0a3e79f8"
def mailBlock : String := "nb-cac18a63c1665df3cea3e2816f3d007ec93161e2422285fad838c541ab13f2e7"

def noticesDocument : NormalizedDocument where
  documentId := "d"
  normalizationVersion := normalizationVersion
  pages := [
    ⟨1, [⟨dueBlock, .text, "Rent is due monthly.", ⟨1, 1, none, .nativeText⟩⟩], [], false⟩,
    ⟨2, [⟨mailBlock, .text, "Notices are sent by mail.", ⟨2, 2, none, .nativeText⟩⟩], [], false⟩]
  warnings := []

def noticesChunk : DocumentChunk where
  chunkId := "ch-b74741a788f29bb8e1dda94ff788dc3d8d61bac75afcc10d99810e0ebbe4dff7"
  ordinal := 1
  structureNodeId := "sn-c6e4ad45224c9b20fb95ddc8ee1c04b4d6b05f517792833ecb739a75880a85e3"
  text := "Rent is due monthly.\n\nNotices are sent by mail."
  blockIds := [dueBlock, mailBlock]
  sourceSpans := [⟨1, 1, none, .nativeText⟩, ⟨2, 2, none, .nativeText⟩]
  warnings := []

def noticesChunked : ChunkedDocument :=
  ⟨"d", chunkingVersion, [noticesChunk], []⟩

/-- The digests of the identities that the stages and the catalog make of `noticesParsed`. -/
def noticesDigests : List (List UInt8 × String) :=
  [(asBytes "normalized-block\x00d\x001.0.0\x00" ++ toBeBytes 1 ++ toBeBytes 0,
      "9880ff89e98ffa5046bd8529eed88472f4814c39dcef21c0e399f84c0a3e79f8"),
    (asBytes "normalized-block\x00d\x001.0.0\x00" ++ toBeBytes 2 ++ toBeBytes 0,
      "cac18a63c1665df3cea3e2816f3d007ec93161e2422285fad838c541ab13f2e7"),
    (asBytes "structure-node\x00d\x001.0.0\x00unstructured" ++ toBeBytes 1 ++ toBeBytes 0 ++
        toBeBytes 0 ++ asBytes ("\x00\x00" ++ dueBlock ++ "\x00" ++ mailBlock),
      "c6e4ad45224c9b20fb95ddc8ee1c04b4d6b05f517792833ecb739a75880a85e3"),
    (asBytes "document-chunk\x00d\x001.0.0\x00" ++ toBeBytes 1 ++ asBytes
        (noticesChunk.structureNodeId ++ "\x00" ++ dueBlock ++ "\x00" ++ mailBlock ++ "\x00" ++
          noticesChunk.text),
      "b74741a788f29bb8e1dda94ff788dc3d8d61bac75afcc10d99810e0ebbe4dff7"),
    (asBytes ("quote\x0014.0.0\x00" ++ noticesChunk.chunkId ++ "\x00" ++ dueBlock ++
        "\x001\x00Rent is due monthly."),
      "be6bf9769d6c96ee55adad7290f401807a6553eec868765abb6218aef25b7467"),
    (asBytes ("quote\x0014.0.0\x00" ++ noticesChunk.chunkId ++ "\x00" ++ mailBlock ++
        "\x002\x00Notices are sent by mail."),
      "db3bf9f832d600ab510f2257d6faa222b1ce2b22c5d754051c28b6b519470969")]

/-- Real digests for `noticesParsed` and codes for other bytes. -/
def noticesPlatform : TextPlatform where
  sha256Hex bytes := ((noticesDigests.find? (·.1 == bytes)).map (·.2)).getD (byteCode bytes)
  isUppercase := Char.isUpper

theorem notices_normalize : normalize noticesPlatform noticesParsed = .ok noticesDocument := by
  decide +kernel

theorem quote_catalog_sound_of_notices :
    normalize noticesPlatform noticesParsed = .ok noticesDocument ∧
      ∃ catalog, deriveAnalysisQuoteCatalogForBlocks noticesPlatform analysisVersion noticesChunk
          noticesDocument .ascii [dueBlock, mailBlock] = .ok catalog ∧
        validateVersionedAnalysisQuoteCatalogForBlocks noticesPlatform analysisVersion noticesChunk
          noticesDocument .ascii [dueBlock, mailBlock] catalog.candidates = .ok () ∧
        (catalog.candidates.map (·.fullIdentity)).Nodup ∧
        ∀ blockId ∈ [dueBlock, mailBlock], blockId ∈ catalog.candidates.map (·.blockId) := by
  have chunks : (interpret noticesPlatform noticesDocument >>=
      chunk noticesPlatform noticesDocument) = .ok noticesChunked := by
    decide +kernel
  obtain ⟨structured, -, chunks⟩ := peel_ok.mp chunks
  have separable := separable_of_stages (listed_digest_plain (by decide +kernel)) notices_normalize
    chunks
  have admitted : AdmittedScope noticesDocument noticesChunked noticesChunk
      [dueBlock, mailBlock] :=
    ⟨by decide +kernel, by decide +kernel, List.mem_singleton_self _, by decide +kernel,
      by decide, by decide +kernel, by decide⟩
  obtain ⟨catalog, derived, valid, -, distinct, -, -, represented, -⟩ :=
    @quote_catalog_sound noticesPlatform
      (@listed_digest_injective noticesDigests (by decide +kernel) (by decide +kernel)) .ascii
      analysisVersion _ _ separable _ _ admitted
  refine ⟨notices_normalize, catalog, derived, valid, distinct, ?_⟩
  intro blockId mem
  apply represented blockId mem
  cases mem with
  | head => exact ⟨_, _, rfl, rfl, by decide +kernel⟩
  | tail _ mem =>
      obtain rfl := List.mem_singleton.mp mem
      exact ⟨_, _, rfl, rfl, by decide +kernel⟩

end DocumentSummarizer.Pipeline
