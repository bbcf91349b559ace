import DocumentSummarizer.Pipeline.Text

/-! # Normalization

One conservative block for each page with native text; representation cleanup
is the only change.
-/

namespace DocumentSummarizer.Pipeline

open Library

def normalizationVersion : String := "1.0.0"

def normalizationFailure (code message : String) (recoverable : Bool) : PipelineFailure :=
  ⟨code, message, some .normalize, recoverable⟩

def invalidParsed (message : String) : PipelineFailure :=
  normalizationFailure "INVALID_PARSED_DOCUMENT" message false

def invalidNormalized (message : String) : PipelineFailure :=
  normalizationFailure "INVALID_NORMALIZED_DOCUMENT" message false

/-- Line endings become line feeds and null characters go. -/
def cleanChars : List Char → List Char × Bool
  | [] => ([], false)
  | '\r' :: '\n' :: rest => ('\n' :: (cleanChars rest).1, true)
  | '\r' :: rest => ('\n' :: (cleanChars rest).1, true)
  | '\x00' :: rest => ((cleanChars rest).1, true)
  | c :: rest => (c :: (cleanChars rest).1, (cleanChars rest).2)

def cleanText (input : String) : String × Bool :=
  let cleaned := cleanChars input.toList
  (String.ofList cleaned.1, cleaned.2)

section Normalizer

variable (platform : TextPlatform)

def deterministicBlockId (documentId normalizationVersion : String)
    (pageNumber blockIndex : Nat) : String :=
  "nb-" ++ platform.sha256Hex (asBytes "normalized-block\x00" ++ asBytes documentId ++
    asBytes "\x00" ++ asBytes normalizationVersion ++ asBytes "\x00" ++ toBeBytes pageNumber ++
    toBeBytes blockIndex)

/-- `page.warnings.iter().any(|warning| warning.code == "NO_NATIVE_TEXT")` -/
def lacksNativeText (warnings : List PipelineWarning) : Bool :=
  warnings.any (·.code == "NO_NATIVE_TEXT")

/-! ## Validating the input -/

/-- The page checks of `validate_parsed_document`, from the given zero-based index. -/
def validateParsedPages : Nat → List ParsedPage → Except PipelineFailure Unit
  | _, [] => return ()
  | index, page :: rest => do
    let expected ← okOrElse (toU32 (index + 1))
      (invalidParsed "Parsed page count exceeds the supported page-number range")
    refuseIf (page.pageNumber ≠ expected)
      (invalidParsed "Parsed pages are not in canonical one-based order")
    refuseIf (isBlank page.text = true ∧
        (page.requiresVisualProcessing = false ∨ lacksNativeText page.warnings = false))
      (invalidParsed
        s!"Empty parsed page {page.pageNumber} lacks its visual-routing marker or warning")
    validateParsedPages (index + 1) rest

def validateParsedDocument (parsed : ParsedDocument) : Except PipelineFailure Unit := do
  refuseIf (isBlank parsed.documentId = true ∨ isBlank parsed.parserId = true ∨
      isBlank parsed.parserVersion = true)
    (invalidParsed "Parsed document identity and parser identity must be present")
  validateParsedPages 0 parsed.pages

/-! ## Normalizing -/

def cleanupWarning : PipelineWarning :=
  ⟨"REPRESENTATION_CLEANUP_APPLIED",
    "Line endings or non-semantic control artifacts were normalized", some .normalize⟩

def normalizedBlock (parsed : ParsedDocument) (page : ParsedPage) : NormalizedBlock where
  blockId := deterministicBlockId platform parsed.documentId normalizationVersion page.pageNumber 0
  kind := .text
  text := (cleanText page.text).1
  source := ⟨page.pageNumber, page.pageNumber, none, parsed.sourceType⟩

def normalizedPage (parsed : ParsedDocument) (page : ParsedPage) : NormalizedPage where
  pageNumber := page.pageNumber
  content :=
    if isBlank (cleanText page.text).1 then [] else [normalizedBlock platform parsed page]
  warnings :=
    if (cleanText page.text).2 then page.warnings ++ [cleanupWarning] else page.warnings
  requiresVisualProcessing := page.requiresVisualProcessing

/-- The loop of `normalize`. -/
def normalizePages (parsed : ParsedDocument) :
    List ParsedPage → Except PipelineFailure (List NormalizedPage)
  | [] => return []
  | page :: rest => do
    refuseIf (isBlank (cleanText page.text).1 = true ∧ page.requiresVisualProcessing = false)
      (invalidParsed
        s!"Page {page.pageNumber} has no content after safe cleanup but lacks visual routing")
    let pages ← normalizePages parsed rest
    return normalizedPage platform parsed page :: pages

/-! ## Validating the output -/

/-- The block checks of `validate_normalized_document`; answers the block identities seen. -/
def validateNormalizedBlocks (normalized : NormalizedDocument) (parsed : ParsedDocument)
    (page : NormalizedPage) (expectedText : String) :
    Nat → List String → List NormalizedBlock → Except PipelineFailure (List String)
  | _, seen, [] => return seen
  | position, seen, block :: rest => do
    let blockIndex ← okOrElse (toU32 position)
      (invalidNormalized "Normalized block count exceeds the supported identity range")
    refuseIf (block.blockId ≠ deterministicBlockId platform normalized.documentId
        normalized.normalizationVersion page.pageNumber blockIndex ∨ block.blockId ∈ seen)
      (invalidNormalized "Normalized block identity is invalid or duplicated")
    refuseIf (block.text ≠ expectedText)
      (invalidNormalized "Normalized text differs from the permitted representation cleanup")
    refuseIf (block.source.pageStart ≠ page.pageNumber ∨ block.source.pageEnd ≠ page.pageNumber ∨
        block.source.pageStart ≠ block.source.pageEnd ∨
        block.source.pageStart ∉ parsed.pages.map (·.pageNumber) ∨
        block.source.sectionId ≠ none ∨ block.source.sourceType ≠ parsed.sourceType)
      (invalidNormalized
        "Normalized block source provenance is invalid or crosses a page boundary")
    validateNormalizedBlocks normalized parsed page expectedText (position + 1)
      (block.blockId :: seen) rest

/-- The page checks of `validate_normalized_document`. -/
def validateNormalizedPages (normalized : NormalizedDocument) (parsed : ParsedDocument) :
    List String → List (NormalizedPage × ParsedPage) → Except PipelineFailure Unit
  | _, [] => return ()
  | seen, (page, parsedPage) :: rest => do
    refuseIf (page.pageNumber ≠ parsedPage.pageNumber)
      (invalidNormalized "Normalization changed source page ordering or numbering")
    refuseIf (page.requiresVisualProcessing ≠ parsedPage.requiresVisualProcessing)
      (invalidNormalized "Normalization changed a page visual-routing marker")
    refuseIf (¬ parsedPage.warnings <+: page.warnings)
      (invalidNormalized "Normalization did not preserve page warnings")
    let (expectedText, cleanupApplied) := cleanText parsedPage.text
    refuseIf (cleanupApplied = true ∧
        page.warnings.any (·.code == "REPRESENTATION_CLEANUP_APPLIED") = false)
      (invalidNormalized "Representation cleanup was not recorded as a page warning")
    if isBlank expectedText then
      refuseIf (page.content ≠ [])
        (invalidNormalized "An empty source page gained fabricated normalized content")
      validateNormalizedPages normalized parsed seen rest
    else
      refuseIf (page.content.length ≠ 1)
        (invalidNormalized
          "Normalization must preserve each native-text page as one conservative block")
      let seen ← validateNormalizedBlocks platform normalized parsed page expectedText 0 seen
        page.content
      validateNormalizedPages normalized parsed seen rest

def validateNormalizedDocument (normalized : NormalizedDocument) (parsed : ParsedDocument)
    (expectedVersion : String) : Except PipelineFailure Unit := do
  refuseIf (normalized.documentId ≠ parsed.documentId)
    (invalidNormalized "Normalized document identity does not match parsed input")
  refuseIf (isBlank normalized.normalizationVersion = true ∨
      normalized.normalizationVersion ≠ expectedVersion)
    (invalidNormalized
      "Normalization version is missing or does not match the selected normalizer")
  refuseIf (normalized.pages.length ≠ parsed.pages.length)
    (invalidNormalized "Normalization changed the number of source pages")
  refuseIf (¬ parsed.warnings <+: normalized.warnings)
    (invalidNormalized "Normalization did not preserve document warnings")
  validateNormalizedPages platform normalized parsed [] (normalized.pages.zip parsed.pages)

/-- `CanonicalNormalizer::normalize` -/
def normalize (parsed : ParsedDocument) : Except PipelineFailure NormalizedDocument := do
  validateParsedDocument parsed
  let pages ← normalizePages platform parsed parsed.pages
  let normalized : NormalizedDocument :=
    ⟨parsed.documentId, normalizationVersion, pages, parsed.warnings⟩
  validateNormalizedDocument platform normalized parsed normalizationVersion
  return normalized

end Normalizer

/-! ## What an accepted document looks like -/

section Accepted

variable {platform : TextPlatform} {parsed : ParsedDocument} {normalized : NormalizedDocument}

theorem validateParsedPages_ok {index : Nat} {pages : List ParsedPage}
    (h : validateParsedPages index pages = .ok ()) :
    (∀ i page, pages[i]? = some page → page.pageNumber = index + i + 1) ∧
      (pages ≠ [] → index + pages.length ≤ u32Max) := by
  induction pages generalizing index with
  | nil => exact ⟨by simp, fun nonempty => absurd rfl nonempty⟩
  | cons page rest ih =>
      simp only [validateParsedPages, peel_ok, okOrElse_eq_ok, refuseIf_eq_ok, toU32_eq_some,
        not_not] at h
      obtain ⟨_, ⟨bounded, rfl⟩, _, numbered, _, -, later⟩ := h
      obtain ⟨order, bound⟩ := ih later
      constructor
      · intro i other found
        cases i with
        | zero =>
            obtain rfl := Option.some.inj found
            exact numbered
        | succ i =>
            have next := order i other found
            omega
      · intro _
        cases rest with
        | nil => simpa using bounded
        | cons next rest =>
            have inside := bound (by rintro ⟨⟩)
            simp only [List.length_cons] at inside ⊢
            omega

theorem normalizePages_ok {pages : List ParsedPage} {results : List NormalizedPage}
    (h : normalizePages platform parsed pages = .ok results) :
    results = pages.map (normalizedPage platform parsed) ∧
      ∀ page ∈ pages, isBlank (cleanText page.text).1 = true →
        page.requiresVisualProcessing = true := by
  induction pages generalizing results with
  | nil =>
      cases h
      exact ⟨rfl, fun _ mem => absurd mem List.not_mem_nil⟩
  | cons page rest ih =>
      simp only [normalizePages, peel_ok, refuseIf_eq_ok, return_ok] at h
      obtain ⟨_, routed, others, later, rfl⟩ := h
      obtain ⟨rfl, rest_routed⟩ := ih later
      refine ⟨rfl, ?_⟩
      intro other mem blank
      rcases List.mem_cons.mp mem with rfl | mem
      · simpa [blank] using routed
      · exact rest_routed other mem blank

/-- A parsed document whose normalization was accepted. -/
structure Accepted (platform : TextPlatform) (parsed : ParsedDocument)
    (normalized : NormalizedDocument) : Prop where
  shape : normalized = ⟨parsed.documentId, normalizationVersion,
    parsed.pages.map (normalizedPage platform parsed), parsed.warnings⟩
  identified : isBlank parsed.documentId = false
  ordered : ∀ i page, parsed.pages[i]? = some page → page.pageNumber = i + 1
  bounded : parsed.pages.length ≤ u32Max
  routed : ∀ page ∈ parsed.pages, isBlank (cleanText page.text).1 = true →
    page.requiresVisualProcessing = true

theorem accepted_of_normalize (h : normalize platform parsed = .ok normalized) :
    Accepted platform parsed normalized := by
  simp only [normalize, validateParsedDocument, peel_ok, refuseIf_eq_ok, return_ok] at h
  obtain ⟨_, ⟨_, identified, validated⟩, pages, normalizes, _, -, rfl⟩ := h
  obtain ⟨rfl, routed⟩ := normalizePages_ok normalizes
  obtain ⟨ordered, bounded⟩ := validateParsedPages_ok validated
  refine ⟨rfl, ?_, ?_, ?_, routed⟩
  · simp only [not_or, Bool.not_eq_true] at identified
    exact identified.1
  · intro i page found
    have numbered := ordered i page found
    omega
  · by_cases none : parsed.pages = []
    · rw [none]
      exact Nat.zero_le _
    · have inside := bounded none
      omega

end Accepted

end DocumentSummarizer.Pipeline
