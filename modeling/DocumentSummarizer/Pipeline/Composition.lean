import DocumentSummarizer.Pipeline.Packing

/-! # The deterministic stages compose

Normalization, interpretation and chunking one after the other.  Interpretation
asks an empty page for the warning that its text is missing; normalization lets
a page pass whose text only its cleanup empties.
-/

namespace DocumentSummarizer.Pipeline

open Library

/-- Interpretation and chunking accept the document, the chunks hold its blocks in page order,
and each block is the cleaned text of its page. -/
structure Composes (platform : TextPlatform) (parsed : ParsedDocument)
    (normalized : NormalizedDocument) : Prop where
  chunked : ∃ structured chunked, interpret platform normalized = .ok structured ∧
    chunk platform normalized structured = .ok chunked ∧
    chunked.chunks.flatMap (·.blockIds) = normalized.blocks.map (·.blockId)
  cleaned : List.Forall₂ (fun (page : NormalizedPage) (source : ParsedPage) =>
      page.pageNumber = source.pageNumber ∧ ∀ block ∈ page.content,
        block.text = (cleanText source.text).1 ∧ block.source.pageStart = source.pageNumber ∧
          block.source.pageEnd = source.pageNumber)
    normalized.pages parsed.pages

/-- Every page that cleanup leaves empty says that it has no text. -/
def EmptyPagesMarked (pages : List ParsedPage) : Prop :=
  ∀ page ∈ pages, isBlank (cleanText page.text).1 = true → lacksNativeText page.warnings = true

section Normalized

variable {platform : TextPlatform} {parsed : ParsedDocument} {normalized : NormalizedDocument}

theorem normalizedPage_content_length (page : ParsedPage) :
    (normalizedPage platform parsed page).content.length ≤ 1 := by
  simp only [normalizedPage]
  split
  · exact Nat.zero_le _
  · exact Nat.le_refl _

theorem normalizedPage_content_eq_nil {page : ParsedPage} :
    (normalizedPage platform parsed page).content = [] ↔
      isBlank (cleanText page.text).1 = true := by
  simp only [normalizedPage]
  split
  · next blank => simp [blank]
  · next visible => simp [visible]

theorem lacksNativeText_normalizedPage {page : ParsedPage} :
    lacksNativeText (normalizedPage platform parsed page).warnings =
      lacksNativeText page.warnings := by
  have other : lacksNativeText [cleanupWarning] = false := by decide
  simp only [normalizedPage]
  split
  · simp only [lacksNativeText, List.any_append] at other ⊢
    rw [other, Bool.or_false]
  · rfl

theorem blocks_length_le (pages : List ParsedPage) :
    ((pages.map (normalizedPage platform parsed)).flatMap (·.content)).length ≤ pages.length := by
  induction pages with
  | nil => exact Nat.le_refl _
  | cons page rest ih =>
      have one := @normalizedPage_content_length platform parsed page
      simp only [List.map_cons, List.flatMap_cons, List.length_append, List.length_cons]
      omega

/-- The blocks of earlier pages. -/
def FromPages (platform : TextPlatform) (parsed : ParsedDocument) (before : Nat)
    (seen : List String) : Prop :=
  ∀ blockId ∈ seen, ∃ page, page ≤ before ∧
    blockId = deterministicBlockId platform parsed.documentId normalizationVersion page 0

theorem validateInputBlocks_normalizedPage (injective : Function.Injective platform.sha256Hex)
    {page : ParsedPage} {index : Nat} {seen : List String} (number : page.pageNumber = index + 1)
    (bound : index + 1 ≤ u32Max) (earlier : FromPages platform parsed index seen) :
    ∃ seen', validateInputBlocks (normalizedPage platform parsed page) seen
        (normalizedPage platform parsed page).content = .ok seen' ∧
      FromPages platform parsed (index + 1) seen' := by
  have later : FromPages platform parsed (index + 1) seen := by
    intro blockId mem
    obtain ⟨before, le, same⟩ := earlier blockId mem
    exact ⟨before, by omega, same⟩
  by_cases blank : isBlank (cleanText page.text).1 = true
  · rw [normalizedPage_content_eq_nil.mpr blank]
    exact ⟨seen, rfl, later⟩
  · have content : (normalizedPage platform parsed page).content =
        [normalizedBlock platform parsed page] := by simp [normalizedPage, blank]
    rw [content]
    refine ⟨(normalizedBlock platform parsed page).blockId :: seen, ?_, ?_⟩
    · rw [validateInputBlocks]
      refine (ok_bind (refuseIf_of_not ?_) _).trans rfl
      have visible : isBlank (normalizedBlock platform parsed page).blockId = false := by
        refine isBlank_of_visible (c := 'n') ?_ (by decide)
        simp [normalizedBlock, deterministicBlockId]
      have new : (normalizedBlock platform parsed page).blockId ∉ seen := by
        intro mem
        obtain ⟨before, le, same⟩ := earlier _ mem
        have equal := deterministicBlockId_page injective (by omega) (by omega) same
        omega
      simp only [not_or]
      exact ⟨by simp [visible], new, blank, fun different => different rfl,
        fun different => different rfl⟩
    · intro blockId mem
      rcases List.mem_cons.mp mem with rfl | mem
      · exact ⟨page.pageNumber, by omega, rfl⟩
      · exact later blockId mem

/-- Interpretation's checks of the pages come down to the marks of the empty ones. -/
theorem validateInputPages_iff (injective : Function.Injective platform.sha256Hex)
    {pages : List ParsedPage} {index : Nat} {seen : List String}
    (ordered : ∀ i page, pages[i]? = some page → page.pageNumber = index + i + 1)
    (bound : index + pages.length ≤ u32Max)
    (routed : ∀ page ∈ pages, isBlank (cleanText page.text).1 = true →
      page.requiresVisualProcessing = true)
    (earlier : FromPages platform parsed index seen) :
    validateInputPages index seen (pages.map (normalizedPage platform parsed)) = .ok () ↔
      EmptyPagesMarked pages := by
  induction pages generalizing index seen with
  | nil => exact ⟨fun _ _ mem => absurd mem List.not_mem_nil, fun _ => rfl⟩
  | cons page rest ih =>
      simp only [List.length_cons] at bound
      have number : page.pageNumber = index + 1 := ordered 0 page rfl
      have fits : toU32 (index + 1) = some (index + 1) := toU32_eq_some.mpr ⟨by omega, rfl⟩
      obtain ⟨seen', validated, later⟩ := validateInputBlocks_normalizedPage injective number
        (by omega) earlier
      have others := @ih (index + 1) seen'
        (fun i other found => by
          have next := ordered (i + 1) other found
          omega)
        (by omega) (fun other mem => routed other (List.mem_cons_of_mem _ mem)) later
      rw [List.map_cons, validateInputPages, fits]
      simp only [peel_ok, okOrElse_eq_ok, Option.some.injEq, exists_eq_left', refuseIf_eq_ok,
        validated, Except.ok.injEq, others]
      rw [normalizedPage_content_eq_nil]
      have mark : (normalizedPage platform parsed page).warnings.any
          (·.code == "NO_NATIVE_TEXT") = lacksNativeText page.warnings :=
        lacksNativeText_normalizedPage
      have routing : isBlank (cleanText page.text).1 = true →
          (normalizedPage platform parsed page).requiresVisualProcessing = true :=
        routed page List.mem_cons_self
      rw [mark, EmptyPagesMarked, EmptyPagesMarked, List.forall_mem_cons]
      constructor
      · rintro ⟨-, -, -, admitted, marked⟩
        refine ⟨fun blank => ?_, marked⟩
        simpa [blank, routing blank] using admitted
      · rintro ⟨marked, rest_marked⟩
        refine ⟨⟨⟩, fun different => different number, ⟨⟩, ?_, rest_marked⟩
        rintro ⟨blank, missing⟩
        rw [routing blank, marked blank] at missing
        rcases missing with unrouted | unmarked
        · cases unrouted
        · cases unmarked

theorem validateNormalizedInput_iff (injective : Function.Injective platform.sha256Hex)
    (accepted : Accepted platform parsed normalized) :
    validateNormalizedInput normalized = .ok () ↔ EmptyPagesMarked parsed.pages := by
  have pages := @validateInputPages_iff platform parsed injective parsed.pages 0 []
    (fun i page found => by
      have number := accepted.ordered i page found
      omega)
    (by simpa using accepted.bounded) accepted.routed fun _ mem => absurd mem List.not_mem_nil
  have version : ¬ isBlank normalizationVersion = true := by decide
  rw [accepted.shape, ← pages]
  simp only [validateNormalizedInput, peel_ok, refuseIf_eq_ok, not_or]
  constructor
  · rintro ⟨_, -, validated⟩
    exact validated
  · intro validated
    exact ⟨⟨⟩, ⟨by simp [accepted.identified], version⟩, validated⟩

theorem normalizedPages_cleaned (pages : List ParsedPage) :
    List.Forall₂ (fun (page : NormalizedPage) (source : ParsedPage) =>
        page.pageNumber = source.pageNumber ∧ ∀ block ∈ page.content,
          block.text = (cleanText source.text).1 ∧ block.source.pageStart = source.pageNumber ∧
            block.source.pageEnd = source.pageNumber)
      (pages.map (normalizedPage platform parsed)) pages := by
  induction pages with
  | nil => exact .nil
  | cons page rest ih =>
      refine .cons ⟨rfl, ?_⟩ ih
      intro block mem
      by_cases blank : isBlank (cleanText page.text).1 = true
      · rw [normalizedPage_content_eq_nil.mpr blank] at mem
        exact absurd mem List.not_mem_nil
      · simp only [normalizedPage, blank] at mem
        obtain rfl := List.mem_singleton.mp mem
        exact ⟨rfl, rfl, rfl⟩

theorem Composes.marked (composes : Composes platform parsed normalized)
    (injective : Function.Injective platform.sha256Hex)
    (accepted : Accepted platform parsed normalized) : EmptyPagesMarked parsed.pages := by
  obtain ⟨structured, -, interpreted, -⟩ := composes.chunked
  simp only [interpret, peel_ok] at interpreted
  obtain ⟨_, validated, -⟩ := interpreted
  exact (validateNormalizedInput_iff injective accepted).mp validated

/-- The stages after normalization accept its output exactly when every page that cleanup
leaves empty carries the warning that its text is missing. -/
theorem normalized_document_composes_iff (injective : Function.Injective platform.sha256Hex)
    (h : normalize platform parsed = .ok normalized) :
    Composes platform parsed normalized ↔
      ∀ page ∈ parsed.pages, isBlank (cleanText page.text).1 = true →
        lacksNativeText page.warnings = true := by
  have accepted := accepted_of_normalize h
  have input := validateNormalizedInput_iff injective accepted
  constructor
  · exact fun composes => composes.marked injective accepted
  · intro marked
    have validated := input.mpr marked
    have few : normalized.blocks.length ≤ u32Max := by
      have count := @blocks_length_le platform parsed parsed.pages
      have bound := accepted.bounded
      rw [NormalizedDocument.blocks, accepted.shape]
      exact count.trans bound
    obtain ⟨outline, valid, narrow, interpreted⟩ := interpret_accepts injective validated
      (validateNormalizedInput_distinct validated)
    obtain ⟨groups, inputs⟩ := validateInputs_accepts injective validated valid narrow
    obtain ⟨chunked, chunks, packed⟩ := chunk_accepts injective inputs few
    refine ⟨⟨_, chunked, interpreted, chunks, packed.blockIds⟩, ?_⟩
    rw [accepted.shape]
    exact normalizedPages_cleaned parsed.pages

end Normalized

/-! ## Two documents -/

/-- Distinct codes that no hexadecimal digest equals. -/
def byteCode (bytes : List UInt8) : String :=
  String.ofList (bytes.map fun byte => Char.ofNat (byte.toNat + 256))

/-- The digests of the identities that the stages make of `sectionDocument`. -/
def sectionDigests : List (List UInt8 × String) :=
  [(asBytes "normalized-block\x00doc\x001.0.0\x00" ++ toBeBytes 1 ++ toBeBytes 0,
      "f93abaca13fe20b29f4bb0a003e7e5be88dcb23521935763b41bdf39322ad1bd"),
    (asBytes "structure-node\x00doc\x001.0.0\x00document" ++ toBeBytes 0 ++ toBeBytes 0 ++
        asBytes "\x00",
      "67154c83ae9fa908571b1034ee1a9dc56e51cfbf5b819b286810e916a698977b"),
    (asBytes "structure-node\x00doc\x001.0.0\x00section" ++ toBeBytes 1 ++ toBeBytes 0 ++
        toBeBytes 0 ++ asBytes ("\x00Scope\x00" ++
          "nb-f93abaca13fe20b29f4bb0a003e7e5be88dcb23521935763b41bdf39322ad1bd"),
      "c476199767d5c93bd804fbba894dc5e241786a3532b4bfe0f47416460dbcdbd0"),
    (asBytes "document-chunk\x00doc\x001.0.0\x00" ++ toBeBytes 1 ++ asBytes
        ("sn-c476199767d5c93bd804fbba894dc5e241786a3532b4bfe0f47416460dbcdbd0\x00" ++
          "nb-f93abaca13fe20b29f4bb0a003e7e5be88dcb23521935763b41bdf39322ad1bd\x00" ++
          "1. Scope\nText"),
      "ffd023e2afaf7cc917c2f1a066b65076f0e45814b306dce4ea0d5a79445203ef")]

/-- Real digests for `sectionDocument` and codes for other bytes. -/
def sectionPlatform : TextPlatform where
  sha256Hex bytes := ((sectionDigests.find? (·.1 == bytes)).map (·.2)).getD (byteCode bytes)
  isUppercase := Char.isUpper

theorem byteCode_toList (bytes : List UInt8) : (byteCode bytes).toList.map (·.toNat) =
    bytes.map fun byte => byte.toNat + 256 := by
  have valid : ∀ byte : UInt8, (Char.ofNat (byte.toNat + 256)).toNat = byte.toNat + 256 := by
    intro byte
    have bound := byte.toNat_lt
    have isValid : (byte.toNat + 256).isValidChar := by
      left
      omega
    rw [Char.ofNat, dif_pos isValid]
    rfl
  simp [byteCode, valid]

theorem byteCode_injective : Function.Injective byteCode := by
  intro bytes bytes' same
  have codes := congrArg (fun text : String => text.toList.map (·.toNat)) same
  simp only [byteCode_toList] at codes
  refine List.map_injective_iff.mpr ?_ codes
  intro byte byte' equal
  have plain : byte.toNat + 256 = byte'.toNat + 256 := equal
  exact UInt8.toNat_inj.mp (by omega)

theorem byteCode_not_digest {digests : List (List UInt8 × String)}
    (small : ∀ digest ∈ digests.map (·.2), ∃ n ∈ digest.toList.map (·.toNat), n < 256)
    (bytes : List UInt8) : byteCode bytes ∉ digests.map (·.2) := by
  intro mem
  obtain ⟨n, inside, bound⟩ := small _ mem
  rw [byteCode_toList] at inside
  obtain ⟨byte, -, rfl⟩ := List.mem_map.mp inside
  omega

/-- Listed digests, and codes for other bytes, are distinct. -/
theorem listed_digest_injective {digests : List (List UInt8 × String)}
    (distinct : (digests.map (·.2)).Nodup)
    (small : ∀ digest ∈ digests.map (·.2), ∃ n ∈ digest.toList.map (·.toNat), n < 256) :
    Function.Injective fun bytes =>
      ((digests.find? (·.1 == bytes)).map (·.2)).getD (byteCode bytes) := by
  have listed : ∀ bytes entry, digests.find? (·.1 == bytes) = some entry →
      entry.1 = bytes ∧ entry ∈ digests := by
    intro bytes entry found
    have key := List.find?_some found
    exact ⟨beq_iff_eq.mp key, List.mem_of_find?_eq_some found⟩
  intro bytes bytes' same
  simp only at same
  cases found : digests.find? (·.1 == bytes) with
  | none =>
      cases found' : digests.find? (·.1 == bytes') with
      | none =>
          rw [found, found'] at same
          exact byteCode_injective same
      | some entry' =>
          rw [found, found'] at same
          have code : byteCode bytes = entry'.2 := same
          exact absurd (code ▸ List.mem_map_of_mem (listed _ _ found').2)
            (byteCode_not_digest small bytes)
  | some entry =>
      cases found' : digests.find? (·.1 == bytes') with
      | none =>
          rw [found, found'] at same
          have code : entry.2 = byteCode bytes' := same
          exact absurd (code ▸ List.mem_map_of_mem (listed _ _ found).2)
            (byteCode_not_digest small bytes')
      | some entry' =>
          rw [found, found'] at same
          obtain ⟨key, mem⟩ := listed _ _ found
          obtain ⟨key', mem'⟩ := listed _ _ found'
          have equal := List.inj_on_of_nodup_map distinct mem mem' same
          rw [← key, ← key', equal]

theorem listed_digest_plain {digests : List (List UInt8 × String)}
    (plain : ∀ digest ∈ digests.map (·.2), '\x00' ∉ digest.toList) (bytes : List UInt8) :
    '\x00' ∉ (((digests.find? (·.1 == bytes)).map (·.2)).getD (byteCode bytes)).toList := by
  cases found : digests.find? (·.1 == bytes) with
  | none =>
      intro mem
      have code : 0 ∈ (byteCode bytes).toList.map (·.toNat) := List.mem_map_of_mem mem
      simp [byteCode_toList] at code
  | some entry => exact plain _ (List.mem_map_of_mem (List.mem_of_find?_eq_some found))

theorem sectionPlatform_injective : Function.Injective sectionPlatform.sha256Hex :=
  @listed_digest_injective sectionDigests (by decide +kernel) (by decide +kernel)

/-- A page that opens a section and a page without text. -/
def sectionDocument : ParsedDocument where
  documentId := "doc"
  parserId := "pdf"
  parserVersion := "1"
  sourceType := .nativeText
  pages := [⟨1, "1. Scope\r\nText", [], false⟩,
    ⟨2, "", [⟨"NO_NATIVE_TEXT", "NO_NATIVE_TEXT", some .parse⟩], true⟩]
  warnings := []

theorem section_document_composes : ∃ normalized,
    normalize sectionPlatform sectionDocument = .ok normalized ∧
      Composes sectionPlatform sectionDocument normalized := by
  obtain ⟨normalized, normalizes⟩ :=
    exists_ok (show (normalize sectionPlatform sectionDocument).isOk = true by decide +kernel)
  exact ⟨normalized, normalizes, (normalized_document_composes_iff sectionPlatform_injective
    normalizes).mpr (by decide +kernel)⟩

/-- A page of one null character, routed to visual processing without the warning. -/
def nullPageDocument : ParsedDocument :=
  { sectionDocument with pages := [⟨1, "\x00", [], true⟩] }

theorem null_page_does_not_compose :
    ¬ ∀ platform : TextPlatform, Function.Injective platform.sha256Hex →
      ∀ parsed normalized, normalize platform parsed = .ok normalized →
        Composes platform parsed normalized := by
  intro claim
  obtain ⟨normalized, normalizes⟩ :=
    exists_ok (show (normalize sectionPlatform nullPageDocument).isOk = true by decide +kernel)
  have composes := claim sectionPlatform sectionPlatform_injective nullPageDocument normalized
    normalizes
  have marked := composes.marked sectionPlatform_injective (accepted_of_normalize normalizes)
  exact absurd (marked _ List.mem_cons_self (by decide +kernel)) (by decide)

end DocumentSummarizer.Pipeline
