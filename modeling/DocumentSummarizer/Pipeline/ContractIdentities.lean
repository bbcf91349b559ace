import DocumentSummarizer.Pipeline.ContractExtraction
import DocumentSummarizer.Pipeline.Normalize

/-! # Identities of contract records

What the hashed parts determine, when SHA-256 has no collisions: a clause its
ordinal, and evidence its range.
-/

namespace DocumentSummarizer.Pipeline

open Library

theorem asBytes_append (a b : String) : asBytes (a ++ b) = asBytes a ++ asBytes b := by
  simp [asBytes]

theorem asBytes_injective : Function.Injective asBytes := by
  intro a b same
  simp only [asBytes, String.toUTF8_eq_toByteArray] at same
  apply String.toByteArray_inj.mp
  exact ByteArray.ext (Array.ext' same)

/-- The text that the parts of an identity spell. -/
def separated (parts : List String) : List Char :=
  parts.flatMap fun part => '\x00' :: part.toList

section Injective

variable {platform : TextPlatform} (injective : Function.Injective platform.sha256Hex)

include injective

theorem deterministicId_separated {kind : String} {parts parts' : List String}
    (h : deterministicId platform kind parts = deterministicId platform kind parts') :
    separated parts = separated parts' := by
  have spelled : ∀ parts : List String,
      (parts.flatMap fun part => asBytes "\x00" ++ asBytes part) =
        asBytes (String.ofList (separated parts)) := by
    intro parts
    induction parts with
    | nil => rfl
    | cons part rest ih =>
        rw [List.flatMap_cons, ih, ← asBytes_append, ← asBytes_append]
        congr 1
        apply String.toList_injective
        simp [separated]
  have preimage := injective ((String.append_right_inj _).mp h)
  rw [List.append_cancel_left_eq, spelled, spelled] at preimage
  have texts := congrArg String.toList (asBytes_injective preimage)
  simpa using texts

end Injective

theorem separated_cons_inj {part part' next next' : String} {rest rest' : List String}
    (plain : '\x00' ∉ part.toList) (plain' : '\x00' ∉ part'.toList)
    (h : separated (part :: next :: rest) = separated (part' :: next' :: rest')) :
    part = part' ∧ separated (next :: rest) = separated (next' :: rest') := by
  have tails : part.toList ++ '\x00' :: (next.toList ++ separated rest) =
      part'.toList ++ '\x00' :: (next'.toList ++ separated rest') := (List.cons.inj h).2
  have split := congrArg (splitOnce '\x00') tails
  rw [splitOnce_append plain, splitOnce_append plain', Option.some.injEq, Prod.mk.injEq] at split
  exact ⟨String.toList_injective split.1, congrArg ('\x00' :: ·) split.2⟩

theorem separated_singleton_inj {part part' : String}
    (h : separated [part] = separated [part']) : part = part' := by
  have tails := (List.cons.inj h).2
  exact String.toList_injective (by simpa using tails)

theorem separated_cons_cancel {part : String} {rest rest' : List String}
    (h : separated (part :: rest) = separated (part :: rest')) :
    separated rest = separated rest' :=
  List.append_cancel_left (List.cons.inj h).2

theorem toString_plain (n : Nat) : '\x00' ∉ (toString n).toList := by
  intro mem
  have digits : (toString n).toList = Nat.toDigits 10 n := by
    show (Nat.repr n).toList = _
    simp [Nat.repr]
  rw [digits] at mem
  have := Nat.isDigit_of_mem_toDigits (by decide) (by decide) mem
  revert this
  decide

/-- Identities that the separator of the hashed parts does not occur in, as in those that
the stages derive from hexadecimal digests. -/
structure Separable (normalized : NormalizedDocument) (chunked : ChunkedDocument) : Prop where
  blocks : ∀ block ∈ normalized.blocks, '\x00' ∉ block.blockId.toList
  chunks : ∀ chunk ∈ chunked.chunks, '\x00' ∉ chunk.chunkId.toList

section Stages

variable {platform : TextPlatform} (plain : ∀ bytes, '\x00' ∉ (platform.sha256Hex bytes).toList)

include plain

theorem plain_of_digest {kind : String} {bytes : List UInt8} (kind_plain : '\x00' ∉ kind.toList) :
    '\x00' ∉ (kind ++ platform.sha256Hex bytes).toList := by
  rw [String.toList_append, List.mem_append, not_or]
  exact ⟨kind_plain, plain bytes⟩

theorem validateChunks_plain {inputs : ChunkInputs} {documentId expectedVersion : String}
    {index : Nat} {seen covered : List String} {chunks : List DocumentChunk}
    (h : validateChunks platform inputs documentId expectedVersion index seen chunks =
      .ok covered) : ∀ chunk ∈ chunks, '\x00' ∉ chunk.chunkId.toList := by
  induction chunks generalizing index seen covered with
  | nil => exact fun _ mem => absurd mem List.not_mem_nil
  | cons chunk rest ih =>
      simp only [validateChunks, peel_ok, refuseIf_eq_ok, not_or, not_not] at h
      obtain ⟨_, -, _, -, _, -, _, -, _, ⟨-, own⟩, _, later, -⟩ := h
      intro other mem
      rcases List.mem_cons.mp mem with rfl | further
      · rw [own]
        exact plain_of_digest plain (by decide)
      · exact ih later other further

/-- The stages derive identities from digests, whose digits are no separators. -/
theorem separable_of_stages {parsed : ParsedDocument} {normalized : NormalizedDocument}
    {structured : StructuredDocument} {chunked : ChunkedDocument}
    (normalizes : normalize platform parsed = .ok normalized)
    (chunks : chunk platform normalized structured = .ok chunked) :
    Separable normalized chunked := by
  constructor
  · intro block mem
    rw [(accepted_of_normalize normalizes).shape] at mem
    obtain ⟨page, page_mem, block_mem⟩ := List.mem_flatMap.mp mem
    obtain ⟨source, -, rfl⟩ := List.mem_map.mp page_mem
    simp only [normalizedPage] at block_mem
    split at block_mem
    · exact absurd block_mem List.not_mem_nil
    · obtain rfl := List.mem_singleton.mp block_mem
      exact plain_of_digest plain (by decide)
  · simp only [chunk, validateChunkedDocument, peel_ok, return_ok] at chunks
    obtain ⟨_, -, _, -, _, ⟨_, -, _, -, _, checked, -⟩, rfl⟩ := chunks
    exact validateChunks_plain plain checked

end Stages

section Identities

variable {platform : TextPlatform} (injective : Function.Injective platform.sha256Hex)
  {normalized : NormalizedDocument}

include injective

theorem clauseIdentity_injective {ordinal ordinal' : Nat} {text text' : String}
    (h : clauseIdentity platform normalized ordinal text =
      clauseIdentity platform normalized ordinal' text') : ordinal = ordinal' := by
  have parts := separated_cons_cancel (separated_cons_cancel (deterministicId_separated injective h))
  have same := (separated_cons_inj (toString_plain _) (toString_plain _) parts).1
  exact Nat.repr_injective same

theorem sourceEvidenceId_injective {chunkId chunkId' quote quote' : String}
    {fragment fragment' : SourceFragment} (chunk : '\x00' ∉ chunkId.toList)
    (chunk' : '\x00' ∉ chunkId'.toList) (block : '\x00' ∉ fragment.blockId.toList)
    (block' : '\x00' ∉ fragment'.blockId.toList)
    (h : sourceEvidenceId platform normalized chunkId fragment quote =
      sourceEvidenceId platform normalized chunkId' fragment' quote') :
    chunkId = chunkId' ∧ fragment = fragment' ∧ quote = quote' := by
  have parts := separated_cons_cancel (separated_cons_cancel (deterministicId_separated injective h))
  obtain ⟨chunks, parts⟩ := separated_cons_inj chunk chunk' parts
  obtain ⟨blocks, parts⟩ := separated_cons_inj block block' parts
  obtain ⟨starts, parts⟩ :=
    separated_cons_inj (toString_plain _) (toString_plain _) parts
  obtain ⟨ends, parts⟩ :=
    separated_cons_inj (toString_plain _) (toString_plain _) parts
  refine ⟨chunks, ?_, separated_singleton_inj parts⟩
  obtain ⟨blockId, start, finish⟩ := fragment
  obtain ⟨blockId', start', finish'⟩ := fragment'
  simp only [SourceFragment.mk.injEq]
  exact ⟨blocks, Nat.repr_injective starts, Nat.repr_injective ends⟩

end Identities

end DocumentSummarizer.Pipeline
