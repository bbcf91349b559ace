import DocumentSummarizer.Library.OptionSequence
import DocumentSummarizer.Pipeline.Composition
import DocumentSummarizer.Pipeline.Corrections

/-! # Corrected text

A correction changes the text of the pages it names and nothing else of a document, and
what normalization accepted before it accepts again, with the corrected text on the pages.
-/

namespace DocumentSummarizer.Pipeline

open Library

/-! ## What an edit leaves -/

/-- A page before and after edits: only the text may change, and only to that of an edit. -/
structure Edited (changes : List PageCorrection) (old new : ParsedPage) : Prop where
  same : new = { old with text := new.text }
  text : new.text = old.text ∧ old.pageNumber ∉ changes.map (·.pageNumber) ∨
    ⟨old.pageNumber, new.text⟩ ∈ changes

variable {changes : List PageCorrection}

theorem Edited.pageNumber {old new : ParsedPage}
    (edited : Edited changes old new) : new.pageNumber = old.pageNumber := by
  rw [edited.same]

/-- A text that an edit may set. -/
def Legible (text : String) : Prop :=
  isBlank text = false ∧ '\x00' ∉ text.toList

theorem replaceText_pages {pageNumber : Nat} {text before : String}
    {pages replaced : List ParsedPage} (numbered : (pages.map (·.pageNumber)).Nodup)
    (h : replaceText pageNumber text pages = some (before, replaced)) :
    pageNumber ∈ pages.map (·.pageNumber) ∧
      List.Forall₂ (Edited [⟨pageNumber, text⟩]) pages replaced := by
  induction pages generalizing replaced with
  | nil => cases h
  | cons page rest ih =>
      obtain ⟨once, numbered⟩ := List.nodup_cons.mp numbered
      unfold replaceText at h
      split at h
      · next found =>
          subst found
          obtain ⟨rfl, rfl⟩ := Prod.mk.inj (Option.some.inj h)
          refine ⟨List.mem_cons_self, .cons ⟨rfl, .inr List.mem_cons_self⟩ ?_⟩
          refine List.forall₂_same.mpr fun other mem => ⟨rfl, .inl ⟨rfl, ?_⟩⟩
          rw [List.map_singleton, List.mem_singleton]
          exact fun same => once (List.mem_map.mpr ⟨other, mem, same⟩)
      · next other =>
          obtain ⟨⟨_, later⟩, found, h⟩ := Option.map_eq_some_iff.mp h
          obtain ⟨rfl, rfl⟩ := Prod.mk.inj h
          obtain ⟨mem, behind⟩ := ih numbered found
          refine ⟨List.mem_cons_of_mem _ mem, .cons ⟨rfl, .inl ⟨rfl, ?_⟩⟩ behind⟩
          rw [List.map_singleton, List.mem_singleton]
          exact other

theorem edited_edited {edit : PageCorrection} {rest : List PageCorrection}
    {pages replaced edited : List ParsedPage}
    (first : List.Forall₂ (Edited [edit]) pages replaced)
    (second : List.Forall₂ (Edited rest) replaced edited) :
    List.Forall₂ (Edited (edit :: rest)) pages edited := by
  induction first generalizing edited with
  | nil =>
      cases second
      exact .nil
  | cons one _ ih =>
      cases second with
      | cons two others =>
          refine .cons ⟨?_, ?_⟩ (ih others)
          · rw [two.same, one.same]
          · rw [← one.pageNumber]
            rcases two.text with ⟨kept, unnamed⟩ | edited
            · rcases one.text with ⟨before, other⟩ | set
              · rw [← one.pageNumber] at other
                refine .inl ⟨kept.trans before, ?_⟩
                simp only [List.map_cons, List.map_nil, List.mem_singleton] at other
                simp only [List.map_cons, List.mem_cons, not_or]
                exact ⟨other, unnamed⟩
              · rw [← one.pageNumber, List.mem_singleton] at set
                rw [kept, set]
                exact .inr List.mem_cons_self
            · exact .inr (List.mem_cons_of_mem _ edited)

theorem edited_numbers {old new : List ParsedPage}
    (edited : List.Forall₂ (Edited changes) old new) :
    new.map (·.pageNumber) = old.map (·.pageNumber) := by
  induction edited with
  | nil => rfl
  | cons first _ ih => simp only [List.map_cons, first.pageNumber, ih]

theorem applyEdits_ok {seen : List Nat} {changed : Bool}
    {pages edited : List ParsedPage} (numbered : (pages.map (·.pageNumber)).Nodup)
    (h : applyEdits seen changes pages = .ok (changed, edited)) :
    List.Forall₂ (Edited changes) pages edited ∧
      (∀ edit ∈ changes, Legible edit.text ∧ edit.pageNumber ∉ seen ∧
        edit.pageNumber ∈ pages.map (·.pageNumber)) ∧
      (changes.map (·.pageNumber)).Nodup := by
  induction changes generalizing seen changed pages with
  | nil =>
      obtain ⟨-, rfl⟩ := Prod.mk.inj (return_ok.mp h)
      have none : ∀ page : ParsedPage, Edited [] page page :=
        fun page => ⟨rfl, .inl ⟨rfl, List.not_mem_nil⟩⟩
      exact ⟨List.forall₂_same.mpr fun page _ => none page,
        fun _ mem => absurd mem List.not_mem_nil, List.nodup_nil⟩
  | cons edit rest ih =>
      simp only [applyEdits, peel_ok, refuseIf_eq_ok, okOrElse_eq_ok, return_ok, exists_const,
        not_or, Bool.not_eq_true] at h
      obtain ⟨new, ⟨before, replaced⟩, found, legible, ⟨later, pages'⟩, others, h⟩ := h
      obtain ⟨-, rfl⟩ := Prod.mk.inj h
      obtain ⟨known, first⟩ := replaceText_pages numbered found
      have numbers := edited_numbers first
      obtain ⟨second, rests, distinct⟩ := ih (numbers ▸ numbered) others
      rw [numbers] at rests
      refine ⟨edited_edited first second, List.forall_mem_cons.mpr ⟨⟨legible, new, known⟩, ?_⟩,
        List.nodup_cons.mpr ⟨?_, distinct⟩⟩
      · intro other mem
        obtain ⟨text, unseen, known⟩ := rests other mem
        exact ⟨text, fun old => unseen (List.mem_cons_of_mem _ old), known⟩
      · intro again
        obtain ⟨other, mem, same⟩ := List.mem_map.mp again
        exact (rests other mem).2.1 (same ▸ List.mem_cons_self)

/-- A document and its correction. -/
structure Corrects (changes : List PageCorrection) (parsed corrected : ParsedDocument) : Prop where
  same : corrected = { parsed with pages := corrected.pages, warnings := corrected.warnings }
  pages : List.Forall₂ (Edited changes) parsed.pages corrected.pages
  edits : ∀ edit ∈ changes, Legible edit.text ∧ edit.pageNumber ∈ parsed.pages.map (·.pageNumber)
  distinct : (changes.map (·.pageNumber)).Nodup
  warnings : parsed.warnings <+: corrected.warnings
  warned : corrected.warnings.any isCorrectionWarning = true

theorem applyPages_same {parsed corrected : ParsedDocument}
    (h : applyPages parsed changes = .ok corrected) :
    (∃ changed, applyEdits [] changes parsed.pages = .ok (changed, corrected.pages)) ∧
      corrected = { parsed with pages := corrected.pages, warnings := corrected.warnings } ∧
      parsed.warnings <+: corrected.warnings ∧
      corrected.warnings.any isCorrectionWarning = true := by
  simp only [applyPages, peel_ok, refuseIf_eq_ok, return_ok, exists_const] at h
  obtain ⟨-, ⟨changed, pages⟩, edited, -, -, rfl⟩ := h
  refine ⟨⟨changed, edited⟩, rfl, ?_, ?_⟩
  · change _ <+: if _ then _ else _
    split
    · exact List.prefix_refl _
    · exact List.prefix_append _ _
  · change List.any (if _ then _ else _) _ = true
    split
    · assumption
    · rw [List.any_append]
      exact Bool.or_eq_true_iff.mpr (.inr rfl)

theorem applyPages_ok {parsed corrected : ParsedDocument}
    (numbered : (parsed.pages.map (·.pageNumber)).Nodup)
    (h : applyPages parsed changes = .ok corrected) : Corrects changes parsed corrected := by
  obtain ⟨⟨changed, edited⟩, same, kept, warned⟩ := applyPages_same h
  obtain ⟨each, edits, distinct⟩ := applyEdits_ok numbered edited
  exact ⟨same, each, fun edit mem => ⟨(edits edit mem).1, (edits edit mem).2.2⟩, distinct, kept,
    warned⟩

/-! ## Normalizing again -/

theorem mem_cleanChars {c : Char} {chars : List Char} (mem : c ∈ chars) (visible : c ≠ '\r')
    (letter : c ≠ '\x00') : c ∈ (cleanChars chars).1 := by
  induction chars using cleanChars.induct with
  | case1 => cases mem
  | case2 rest ih =>
      rw [cleanChars]
      simp only [List.mem_cons, visible, false_or] at mem ⊢
      exact mem.imp_right ih
  | case3 rest _ ih =>
      rw [cleanChars]
      · simp only [List.mem_cons, visible, false_or] at mem ⊢
        exact .inr (ih mem)
      · assumption
  | case4 rest ih =>
      rw [cleanChars]
      simp only [List.mem_cons, letter, false_or] at mem
      exact ih mem
  | case5 d rest _ _ _ ih =>
      rw [cleanChars]
      · exact (List.mem_cons.mp mem).elim (fun same => List.mem_cons.mpr (.inl same))
          fun later => List.mem_cons_of_mem _ (ih later)
      all_goals assumption

theorem cleanText_legible {text : String} (legible : Legible text) :
    isBlank (cleanText text).1 = false := by
  have shown : ¬ ∀ c ∈ text.toList, isWhitespace c = true := by
    rw [← isBlank_iff, legible.1]
    exact Bool.false_ne_true
  obtain ⟨c, found⟩ := not_forall.mp shown
  obtain ⟨mem, visible⟩ := Classical.not_imp.mp found
  have kept : c ∈ (cleanChars text.toList).1 := by
    apply mem_cleanChars mem
    · rintro rfl
      exact visible (by decide)
    · rintro rfl
      exact legible.2 mem
  refine isBlank_of_visible (c := c) ?_ (by simpa using visible)
  rw [cleanText, String.toList_ofList]
  exact kept

section Normalizing

variable {platform : TextPlatform} {parsed : ParsedDocument}

theorem normalizePages_of_routed {pages : List ParsedPage}
    (routed : ∀ page ∈ pages, isBlank (cleanText page.text).1 = true →
      page.requiresVisualProcessing = true) :
    normalizePages platform parsed pages = .ok (pages.map (normalizedPage platform parsed)) := by
  induction pages with
  | nil => rfl
  | cons page rest ih =>
      have others := ih fun other mem => routed other (List.mem_cons_of_mem _ mem)
      have first : ¬ (isBlank (cleanText page.text).1 = true ∧
          page.requiresVisualProcessing = false) := by
        rintro ⟨blank, unrouted⟩
        rw [routed page List.mem_cons_self blank] at unrouted
        cases unrouted
      rw [normalizePages, refuseIf_of_not first, others]
      rfl

theorem normalizedPage_warnings_kept (page : ParsedPage) :
    page.warnings <+: (normalizedPage platform parsed page).warnings := by
  change _ <+: if (cleanText page.text).2 = true then _ else _
  split
  · exact List.prefix_append _ _
  · exact List.prefix_refl _

theorem normalizedPage_cleanup (page : ParsedPage) (cleaned : (cleanText page.text).2 = true) :
    (normalizedPage platform parsed page).warnings.any
      (·.code == "REPRESENTATION_CLEANUP_APPLIED") = true := by
  simp [normalizedPage, cleaned, cleanupWarning]

theorem validateNormalizedBlocks_own (injective : Function.Injective platform.sha256Hex)
    {page : ParsedPage} {index : Nat} {seen : List String} (number : page.pageNumber = index + 1)
    (bound : index + 1 ≤ u32Max) (known : page ∈ parsed.pages)
    (earlier : FromPages platform parsed index seen) :
    validateNormalizedBlocks platform ⟨parsed.documentId, normalizationVersion,
        parsed.pages.map (normalizedPage platform parsed), parsed.warnings⟩ parsed
        (normalizedPage platform parsed page) (cleanText page.text).1 0 seen
        [normalizedBlock platform parsed page] =
      .ok ((normalizedBlock platform parsed page).blockId :: seen) := by
  have new : (normalizedBlock platform parsed page).blockId ∉ seen := by
    intro mem
    obtain ⟨before, le, same⟩ := earlier _ mem
    have equal := deterministicBlockId_page injective (by omega) (by omega) same
    omega
  have source : page.pageNumber ∈ parsed.pages.map (·.pageNumber) := List.mem_map_of_mem known
  simp only [validateNormalizedBlocks, peel_ok, okOrElse_eq_ok, toU32_eq_some, refuseIf_eq_ok,
    exists_const, not_or, not_not, ne_eq]
  exact ⟨0, ⟨Nat.zero_le _, rfl⟩, ⟨rfl, new⟩, rfl, ⟨rfl, rfl, rfl, source, rfl, rfl⟩, rfl⟩

theorem validateNormalizedPages_own (injective : Function.Injective platform.sha256Hex)
    {pages : List ParsedPage} {index : Nat} {seen : List String}
    (ordered : ∀ i page, pages[i]? = some page → page.pageNumber = index + i + 1)
    (bound : index + pages.length ≤ u32Max) (known : ∀ page ∈ pages, page ∈ parsed.pages)
    (earlier : FromPages platform parsed index seen) :
    validateNormalizedPages platform ⟨parsed.documentId, normalizationVersion,
        parsed.pages.map (normalizedPage platform parsed), parsed.warnings⟩ parsed seen
      ((pages.map (normalizedPage platform parsed)).zip pages) = .ok () := by
  induction pages generalizing index seen with
  | nil => rfl
  | cons page rest ih =>
      simp only [List.length_cons] at bound
      have number : page.pageNumber = index + 1 := ordered 0 page rfl
      have others := fun seen' => @ih (index + 1) seen'
        (fun i other found => by
          have next := ordered (i + 1) other found
          omega)
        (by omega) (fun other mem => known other (List.mem_cons_of_mem _ mem))
      have cleanup : ¬ ((cleanText page.text).2 = true ∧
          (normalizedPage platform parsed page).warnings.any
            (·.code == "REPRESENTATION_CLEANUP_APPLIED") = false) := by
        rintro ⟨cleaned, missing⟩
        rw [normalizedPage_cleanup page cleaned] at missing
        cases missing
      simp only [List.map_cons, List.zip_cons_cons, validateNormalizedPages, peel_ok,
        refuseIf_eq_ok, exists_const]
      refine ⟨fun different => different rfl, fun different => different rfl,
        not_not.mpr (normalizedPage_warnings_kept page), cleanup, ?_⟩
      by_cases blank : isBlank (cleanText page.text).1 = true
      · rw [if_pos blank]
        have later : FromPages platform parsed (index + 1) seen := by
          intro blockId mem
          obtain ⟨before, le, same⟩ := earlier blockId mem
          exact ⟨before, by omega, same⟩
        exact peel_ok.mpr ⟨(), refuseIf_of_not (not_not.mpr
          (normalizedPage_content_eq_nil.mpr blank)), others seen later⟩
      · rw [if_neg blank]
        have content : (normalizedPage platform parsed page).content =
            [normalizedBlock platform parsed page] := by simp [normalizedPage, blank]
        have later : FromPages platform parsed (index + 1)
            ((normalizedBlock platform parsed page).blockId :: seen) := by
          refine List.forall_mem_cons.mpr ⟨⟨page.pageNumber, by omega, rfl⟩, fun blockId mem => ?_⟩
          obtain ⟨before, le, same⟩ := earlier blockId mem
          exact ⟨before, by omega, same⟩
        have blocks := validateNormalizedBlocks_own injective number (by omega)
          (known page List.mem_cons_self) earlier
        have single : ¬ (normalizedPage platform parsed page).content.length ≠ 1 := by
          rw [content]
          exact fun different => different rfl
        rw [refuseIf_of_not single, content]
        exact peel_ok.mpr ⟨(), rfl, peel_ok.mpr ⟨_, blocks, others _ later⟩⟩

/-- What normalization accepts: the digests tell pages apart. -/
theorem normalize_of_valid (injective : Function.Injective platform.sha256Hex)
    (valid : validateParsedDocument parsed = .ok ())
    (routed : ∀ page ∈ parsed.pages, isBlank (cleanText page.text).1 = true →
      page.requiresVisualProcessing = true) :
    normalize platform parsed = .ok ⟨parsed.documentId, normalizationVersion,
      parsed.pages.map (normalizedPage platform parsed), parsed.warnings⟩ := by
  have validated := valid
  simp only [validateParsedDocument, peel_ok, refuseIf_eq_ok] at validated
  obtain ⟨_, -, numbered⟩ := validated
  obtain ⟨ordered, bound⟩ := validateParsedPages_ok numbered
  have fits : 0 + parsed.pages.length ≤ u32Max := by
    by_cases none : parsed.pages = []
    · rw [none]
      exact Nat.zero_le _
    · exact bound none
  have pages := @validateNormalizedPages_own platform parsed injective parsed.pages 0 []
    ordered fits (fun _ => id) fun _ mem => absurd mem List.not_mem_nil
  have accepted : validateNormalizedDocument platform ⟨parsed.documentId, normalizationVersion,
      parsed.pages.map (normalizedPage platform parsed), parsed.warnings⟩ parsed
      normalizationVersion = .ok () := by
    simp only [validateNormalizedDocument, peel_ok, refuseIf_eq_ok, exists_const, not_not,
      List.length_map, not_or, ne_eq]
    exact ⟨trivial, ⟨by decide, trivial⟩, trivial, List.prefix_refl _, pages⟩
  simp only [normalize, peel_ok, return_ok]
  exact ⟨(), valid, _, normalizePages_of_routed routed, (), accepted, rfl⟩

theorem validateParsedPages_edited {changes : List PageCorrection} {old new : List ParsedPage}
    {index : Nat} (edited : List.Forall₂ (Edited changes) old new)
    (legible : ∀ edit ∈ changes, Legible edit.text)
    (valid : validateParsedPages index old = .ok ()) : validateParsedPages index new = .ok () := by
  induction edited generalizing index with
  | nil => rfl
  | @cons page page' rest rest' first _ ih =>
      simp only [validateParsedPages, peel_ok, okOrElse_eq_ok, refuseIf_eq_ok,
        exists_const] at valid ⊢
      obtain ⟨expected, fits, numbered, routed, later⟩ := valid
      refine ⟨expected, fits, first.pageNumber ▸ numbered, ?_, ih later⟩
      rcases first.text with ⟨kept, -⟩ | set
      · rw [first.same, kept]
        exact routed
      · rintro ⟨blank, -⟩
        rw [(legible _ set).1] at blank
        cases blank

theorem numbers_nodup {pages : List ParsedPage}
    (ordered : ∀ i page, pages[i]? = some page → page.pageNumber = i + 1) :
    (pages.map (·.pageNumber)).Nodup := by
  refine List.pairwise_iff_getElem.mpr fun i j before after lt => ?_
  rw [List.length_map] at before after
  have first := ordered i pages[i] (List.getElem?_eq_getElem before)
  have second := ordered j pages[j] (List.getElem?_eq_getElem after)
  rw [List.getElem_map, List.getElem_map]
  omega

/-- What a corrected document normalizes to, page by page. -/
theorem corrected_text_normalizes (injective : Function.Injective platform.sha256Hex)
    {normalized : NormalizedDocument} {corrected : ParsedDocument} {changes : List PageCorrection}
    {documentId : String} (normalizes : normalize platform parsed = .ok normalized)
    (applies : applyPages parsed changes = .ok corrected) (named : isBlank documentId = false) :
    ∃ renormalized, normalize platform { corrected with documentId := documentId } =
        .ok renormalized ∧
      renormalized.pages.map (·.pageNumber) = normalized.pages.map (·.pageNumber) ∧
      renormalized.warnings.any isCorrectionWarning = true ∧
      (∀ edit ∈ changes, isBlank (cleanText edit.text).1 = false ∧
        ∃ page ∈ renormalized.pages, page.pageNumber = edit.pageNumber ∧
          page.content.map (·.text) = [(cleanText edit.text).1]) ∧
      (∀ page ∈ normalized.pages, page.pageNumber ∉ changes.map (·.pageNumber) →
        ∃ page' ∈ renormalized.pages, page'.pageNumber = page.pageNumber ∧
          page'.content.map (·.text) = page.content.map (·.text) ∧
          page'.warnings = page.warnings ∧
          page'.requiresVisualProcessing = page.requiresVisualProcessing) := by
  have accepted := accepted_of_normalize normalizes
  simp only [normalize, peel_ok, return_ok] at normalizes
  obtain ⟨_, valid, -⟩ := normalizes
  simp only [validateParsedDocument, peel_ok, refuseIf_eq_ok, exists_const, not_or] at valid
  obtain ⟨⟨-, parserId, parserVersion⟩, numbered⟩ := valid
  have correction := applyPages_ok (numbers_nodup accepted.ordered) applies
  have legible := fun edit mem => (correction.edits edit mem).1
  have identity : corrected.parserId = parsed.parserId ∧
      corrected.parserVersion = parsed.parserVersion := by
    rw [correction.same]
    exact ⟨rfl, rfl⟩
  have valid : validateParsedDocument { corrected with documentId := documentId } = .ok () := by
    simp only [validateParsedDocument, peel_ok, refuseIf_eq_ok, exists_const, not_or]
    rw [identity.1, identity.2]
    exact ⟨⟨by simp [named], parserId, parserVersion⟩,
      validateParsedPages_edited correction.pages legible numbered⟩
  have routed : ∀ page ∈ corrected.pages, isBlank (cleanText page.text).1 = true →
      page.requiresVisualProcessing = true := by
    intro page mem blank
    obtain ⟨old, known, edited⟩ := forall₂_right_exists correction.pages mem
    rcases edited.text with ⟨kept, -⟩ | set
    · rw [edited.same]
      exact accepted.routed old known (kept ▸ blank)
    · rw [cleanText_legible (legible _ set)] at blank
      cases blank
  refine ⟨_, normalize_of_valid injective valid routed, ?_, ?_, fun edit mem => ?_,
    fun page mem unnamed => ?_⟩
  · rw [accepted.shape]
    simp only [List.map_map]
    exact edited_numbers correction.pages
  · exact correction.warned
  · have visible := cleanText_legible (legible edit mem)
    obtain ⟨old, known, number⟩ := List.mem_map.mp (correction.edits edit mem).2
    obtain ⟨new, mem', edited⟩ := forall₂_left_exists correction.pages known
    refine ⟨visible, _, List.mem_map_of_mem mem', edited.pageNumber.trans number, ?_⟩
    have text : new.text = edit.text := by
      rcases edited.text with ⟨-, unnamed⟩ | set
      · exact absurd (List.mem_map_of_mem mem) (number ▸ unnamed)
      · exact congrArg PageCorrection.text
          (List.inj_on_of_nodup_map correction.distinct set mem number)
    simp [normalizedPage, normalizedBlock, visible, text]
  · rw [accepted.shape] at mem
    obtain ⟨old, known, rfl⟩ := List.mem_map.mp mem
    obtain ⟨new, mem', edited⟩ := forall₂_left_exists correction.pages known
    refine ⟨_, List.mem_map_of_mem mem', edited.pageNumber, ?_⟩
    rcases edited.text with ⟨kept, -⟩ | set
    · obtain rfl : new = old := by rw [edited.same, kept]
      refine ⟨?_, rfl, rfl⟩
      simp only [normalizedPage]
      split
      · rfl
      · rfl
    · exact absurd (List.mem_map_of_mem set) unnamed

end Normalizing

theorem blank_page_is_corrected : ∃ corrected renormalized,
    applyPages sectionDocument [⟨2, "Second page"⟩] = .ok corrected ∧
      normalize sectionPlatform { corrected with documentId := "successor" } =
        .ok renormalized ∧
      ∃ page ∈ renormalized.pages, page.pageNumber = 2 ∧
        page.content.map (·.text) = ["Second page"] := by
  obtain ⟨normalized, normalizes⟩ :=
    exists_ok (show (normalize sectionPlatform sectionDocument).isOk = true by decide +kernel)
  obtain ⟨corrected, applies⟩ := exists_ok
    (show (applyPages sectionDocument [⟨2, "Second page"⟩]).isOk = true by decide +kernel)
  obtain ⟨renormalized, accepted, -, -, edits, -⟩ := corrected_text_normalizes
    sectionPlatform_injective normalizes applies (show isBlank "successor" = false by decide)
  obtain ⟨-, page, mem, number, text⟩ := edits _ List.mem_cons_self
  have cleaned : (cleanText "Second page").1 = "Second page" := by decide +kernel
  exact ⟨corrected, renormalized, applies, accepted, page, mem, number,
    text.trans (by rw [cleaned])⟩

end DocumentSummarizer.Pipeline
