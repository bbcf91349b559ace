import DocumentSummarizer.Pipeline.ProfileSample
import DocumentSummarizer.Pipeline.RequestSize

/-! # Profile suggestion prompts

The serialization of a sample, and how long it gets.
-/

namespace DocumentSummarizer.Pipeline.ProfileSuggestion

open Library

/-- The string literal of a text. -/
def literal (text : List Char) : String :=
  quote (String.ofList text)

def ProfileSuggestionSampling.name : ProfileSuggestionSampling → String
  | .fullText => "fullText"
  | .distributed => "distributed"
  | .expanded => "expanded"

def SuggestionExcerpt.toJson (excerpt : SuggestionExcerpt) : String :=
  "\x7b\"pageNumber\":" ++ toString excerpt.pageNumber ++ ",\"text\":" ++
    literal excerpt.text ++ "\x7d"

/-- `serde_json::to_string` of a prompt. -/
def SuggestionPrompt.toJson (prompt : SuggestionPrompt) : String :=
  "\x7b\"totalPages\":" ++ toString prompt.totalPages ++
    ",\"sampling\":" ++ quote prompt.sampling.name ++
    ",\"headingHints\":" ++ jsonArray (prompt.headingHints.map literal) ++
    ",\"excerpts\":" ++ jsonArray (prompt.excerpts.map (·.toJson)) ++ "\x7d"

def inputTooLarge : PipelineFailure :=
  suggestionFailure "PROFILE_SUGGESTION_INPUT_TOO_LARGE"
    "The bounded profile suggestion sample exceeds its request limit" false

/-- What `classify_sample` asks the model about. -/
def userPrompt (prompt : SuggestionPrompt) : Except PipelineFailure String :=
  if maxUserPromptCharacters < prompt.toJson.length then .error inputTooLarge
  else .ok prompt.toJson

/-! ## Texts without escapes -/

/-- No character but a newline needs an escape. -/
def PlainText (text : List Char) : Prop :=
  ∀ c ∈ text, c ≠ '\n' → escapeChar c = [c]

section Plain

variable {text front back : List Char}

theorem PlainText.append (plain : PlainText front) (plain' : PlainText back) :
    PlainText (front ++ back) := by
  intro c mem
  exact (List.mem_append.mp mem).elim (plain c) (plain' c)

theorem PlainText.subset (plain : PlainText text) (inside : front ⊆ text) : PlainText front :=
  fun c mem => plain c (inside mem)

theorem escapeText_plain (plain : PlainText text) :
    (escapeText text).length = text.length + text.count '\n' := by
  induction text with
  | nil => rfl
  | cons c rest ih =>
      have later := ih fun other mem => plain other (List.mem_cons_of_mem _ mem)
      rw [escapeText] at later
      rw [escapeText, List.flatMap_cons, List.length_append, later, List.length_cons]
      by_cases feed : c = '\n'
      · subst feed
        rw [List.count_cons_self]
        have escaped : (escapeChar '\n').length = 2 := rfl
        omega
      · rw [plain c List.mem_cons_self feed, List.count_cons_of_ne feed, List.length_singleton]
        omega

theorem plainText_joined {separator : List Char} {words : List (List Char)}
    (separates : PlainText separator) (plain : ∀ word ∈ words, PlainText word) :
    PlainText (joined separator words) := by
  induction words with
  | nil => simp [joined, PlainText]
  | cons word rest ih =>
      obtain ⟨own, others⟩ := List.forall_mem_cons.mp plain
      cases rest with
      | nil => simpa [joined, List.intercalate] using own
      | cons next rest =>
          rw [joined_cons_cons]
          exact own.append (separates.append (ih others))

theorem trim_subset (text : List Char) : trim text ⊆ text := by
  intro c mem
  exact (List.dropWhile_sublist _).subset ((List.rdropWhile_prefix _ _).subset mem)

theorem plainText_pageText {page : NormalizedPage}
    (plain : ∀ block ∈ page.content, PlainText block.text.toList) : PlainText (pageText page) := by
  refine plainText_joined (by simp [PlainText]) ?_
  intro word mem
  obtain ⟨block, mem', rfl⟩ := List.mem_map.mp (List.mem_filter.mp mem).1
  exact (plain block mem').subset (trim_subset _)

theorem plainText_excerpt {limit : Option Nat} (plain : PlainText text)
    (excerpted : ExcerptOf limit text front) : PlainText front := by
  cases excerpted with
  | whole => exact plain
  | middle _ starts ends =>
      have between : PlainText marker := by
        simp [PlainText, marker, escapeChar, shortEscapes]
      exact ((plain.subset starts.subset).append between).append (plain.subset ends.subset)

theorem splitWhere_unseparated {α : Type} {separates : α → Bool} {text piece : List α}
    (mem : piece ∈ splitWhere separates text) : ∀ a ∈ piece, separates a = false := by
  induction text generalizing piece with
  | nil =>
      rw [List.mem_singleton.mp mem]
      exact fun _ mem => absurd mem List.not_mem_nil
  | cons a rest ih =>
      unfold splitWhere at mem
      split at mem
      · obtain rfl | later := List.mem_cons.mp mem
        · exact fun _ mem => absurd mem List.not_mem_nil
        · exact ih later
      · next plain =>
          split at mem
          · next found => exact absurd found (splitWhere_ne_nil _ _)
          · next first later found =>
              obtain rfl | further := List.mem_cons.mp mem
              · exact List.forall_mem_cons.mpr
                  ⟨by simpa using plain, ih (found ▸ List.mem_cons_self)⟩
              · exact ih (found ▸ List.mem_cons_of_mem _ further)

theorem not_mem_joined {c : Char} {separator : List Char} {words : List (List Char)}
    (separates : c ∉ separator) (plain : ∀ word ∈ words, c ∉ word) :
    c ∉ joined separator words := by
  induction words with
  | nil => simp [joined]
  | cons word rest ih =>
      obtain ⟨own, others⟩ := List.forall_mem_cons.mp plain
      cases rest with
      | nil => simpa [joined, List.intercalate] using own
      | cons next rest =>
          rw [joined_cons_cons]
          simp only [List.mem_append, not_or]
          exact ⟨own, separates, ih others⟩

theorem hintTitle_plain {title : String} (plain : PlainText title.toList) :
    PlainText (hintTitle title) ∧ '\n' ∉ hintTitle title := by
  have words : PlainText (joined [' '] (splitWhitespace title.toList)) := by
    refine plainText_joined (by simp [PlainText, escapeChar, shortEscapes]) fun word mem => ?_
    exact plain.subset fun c inside => splitWhere_subset (List.mem_of_mem_filter mem) c inside
  have feeds : '\n' ∉ joined [' '] (splitWhitespace title.toList) := by
    refine not_mem_joined (by decide) fun word mem inside => ?_
    have visible := splitWhere_unseparated (List.mem_of_mem_filter mem) '\n' inside
    exact absurd visible (by decide)
  exact ⟨words.subset (List.take_subset _ _), fun mem => feeds (List.take_subset _ _ mem)⟩

theorem hintTitle_length (title : String) : (hintTitle title).length ≤ maxHeadingCharacters :=
  List.length_take_le _ _

end Plain

/-! ## Lengths -/

/-- The digits of a number. -/
def digits (n : Nat) : Nat :=
  (toString n).length

/-- The length of a prompt whose text needs no escapes but those of newlines. -/
def promptLength (prompt : SuggestionPrompt) : Nat :=
  61 + digits prompt.totalPages + prompt.sampling.name.length +
    ((prompt.headingHints.map fun hint => hint.length + 2).sum +
      (prompt.headingHints.length - 1)) +
    ((prompt.excerpts.map fun excerpt => 25 + digits excerpt.pageNumber +
      excerpt.text.length + excerpt.text.count '\n').sum + (prompt.excerpts.length - 1))

structure PlainPrompt (prompt : SuggestionPrompt) : Prop where
  hints : ∀ hint ∈ prompt.headingHints, PlainText hint ∧ '\n' ∉ hint
  excerpts : ∀ excerpt ∈ prompt.excerpts, PlainText excerpt.text

theorem literal_length {text : List Char} (plain : PlainText text) :
    (literal text).length = text.length + text.count '\n' + 2 := by
  rw [literal, quote_length, String.toList_ofList, escapeText_plain plain]

theorem SuggestionExcerpt.toJson_length {excerpt : SuggestionExcerpt}
    (plain : PlainText excerpt.text) :
    excerpt.toJson.length = 25 + digits excerpt.pageNumber + excerpt.text.length +
      excerpt.text.count '\n' := by
  have number : "\x7b\"pageNumber\":".length = 14 := rfl
  have text : ",\"text\":".length = 8 := rfl
  have close : "\x7d".length = 1 := rfl
  unfold SuggestionExcerpt.toJson
  simp only [String.length_append, literal_length plain, number, text, close, digits]
  omega

theorem SuggestionPrompt.toJson_length {prompt : SuggestionPrompt} (plain : PlainPrompt prompt) :
    prompt.toJson.length = promptLength prompt := by
  have total : "\x7b\"totalPages\":".length = 14 := rfl
  have sampling : ",\"sampling\":".length = 12 := rfl
  have hints : ",\"headingHints\":".length = 16 := rfl
  have excerpts : ",\"excerpts\":".length = 12 := rfl
  have close : "\x7d".length = 1 := rfl
  have name : (quote prompt.sampling.name).length = prompt.sampling.name.length + 2 := by
    cases prompt.sampling <;> rfl
  have hintLengths : prompt.headingHints.map (String.length ∘ literal) =
      prompt.headingHints.map fun hint => hint.length + 2 := by
    refine List.map_congr_left fun hint mem => ?_
    obtain ⟨plain, single⟩ := plain.hints hint mem
    rw [Function.comp_apply, literal_length plain, List.count_eq_zero_of_not_mem single,
      Nat.add_zero]
  have excerptLengths : prompt.excerpts.map (String.length ∘ SuggestionExcerpt.toJson) =
      prompt.excerpts.map fun excerpt => 25 + digits excerpt.pageNumber +
        excerpt.text.length + excerpt.text.count '\n' :=
    List.map_congr_left fun excerpt mem =>
      SuggestionExcerpt.toJson_length (plain.excerpts excerpt mem)
  have hintArray := jsonArray_length (prompt.headingHints.map literal)
  have excerptArray := jsonArray_length (prompt.excerpts.map (·.toJson))
  rw [List.map_map, List.length_map] at hintArray excerptArray
  simp only [Function.comp_def] at hintArray excerptArray hintLengths excerptLengths
  rw [hintLengths] at hintArray
  rw [excerptLengths] at excerptArray
  unfold SuggestionPrompt.toJson
  simp only [String.length_append, hintArray, excerptArray, total, sampling, hints, excerpts,
    close, name, promptLength, digits]
  omega

/-! ## Bounds -/

/-- The newlines that the excerpts of a prompt show. -/
def excerptNewlines (prompt : SuggestionPrompt) : Nat :=
  (prompt.excerpts.map (·.text.count '\n')).sum

def excerptCharacters (prompt : SuggestionPrompt) : Nat :=
  (prompt.excerpts.map (·.text.length)).sum

theorem digits_le {n k : Nat} (positive : 0 < k) (small : n < 10 ^ k) : digits n ≤ k :=
  (Nat.length_repr_le_iff positive).mpr small

theorem hints_length {hints : List (List Char)} (few : hints.length ≤ maxHeadingHints)
    (short : ∀ hint ∈ hints, hint.length ≤ maxHeadingCharacters) :
    (hints.map fun hint => hint.length + 2).sum + (hints.length - 1) ≤ 1967 := by
  have each : ∀ length ∈ hints.map fun hint => hint.length + 2, length ≤ 122 := by
    intro length mem
    obtain ⟨hint, mem', rfl⟩ := List.mem_map.mp mem
    exact Nat.add_le_add_right (short hint mem') 2
  have total := List.sum_le_card_nsmul _ _ each
  rw [List.length_map, smul_eq_mul] at total
  have few' : hints.length ≤ 16 := few
  omega

theorem excerpts_length {excerpts : List SuggestionExcerpt}
    (numbered : ∀ excerpt ∈ excerpts, excerpt.pageNumber ≤ u32Max) :
    (excerpts.map fun excerpt => 25 + digits excerpt.pageNumber + excerpt.text.length +
      excerpt.text.count '\n').sum ≤
      35 * excerpts.length + (excerpts.map (·.text.length)).sum +
        (excerpts.map (·.text.count '\n')).sum := by
  induction excerpts with
  | nil => rfl
  | cons excerpt rest ih =>
      obtain ⟨own, others⟩ := List.forall_mem_cons.mp numbered
      have digits : digits excerpt.pageNumber ≤ 10 :=
        digits_le (by decide) (lt_of_le_of_lt own (by decide))
      have later := ih others
      simp only [List.map_cons, List.sum_cons, List.length_cons]
      omega

/-- What is in front of the excerpts leaves them this much room. -/
theorem promptLength_le {prompt : SuggestionPrompt} (counted : prompt.totalPages < 2 ^ 64)
    (few : prompt.headingHints.length ≤ maxHeadingHints)
    (short : ∀ hint ∈ prompt.headingHints, hint.length ≤ maxHeadingCharacters)
    (numbered : ∀ excerpt ∈ prompt.excerpts, excerpt.pageNumber ≤ u32Max) :
    promptLength prompt ≤ 2048 + prompt.sampling.name.length + 36 * prompt.excerpts.length +
      excerptCharacters prompt + excerptNewlines prompt := by
  have digits : digits prompt.totalPages ≤ 20 :=
    digits_le (by decide) (lt_trans counted (by decide))
  have hints := hints_length few short
  have excerpts := excerpts_length numbered
  simp only [promptLength, excerptCharacters, excerptNewlines]
  omega

/-! ## Samples -/

section Samples

variable {normalized : NormalizedDocument} {structured : StructuredDocument} {depth : SampleDepth}
  {pages : List (Nat × List Char)} {indices : List Nat} {excerpts : List SuggestionExcerpt}

theorem distributedIndices_all (length : Nat) :
    distributedIndices length length = List.range length := by
  simp only [distributedIndices, Nat.min_self]
  split
  · next none => rw [none, List.range_zero]
  · split
    · next one =>
        rw [one]
        rfl
    · have positive : 0 < length - 1 := by omega
      refine (List.map_congr_left fun slot _ => ?_).trans (List.map_id _)
      exact Nat.mul_div_cancel _ positive

/-- Without a limit the excerpts of all pages are the pages. -/
theorem ExcerptsOf.texts_eq (whole : ExcerptsOf none pages (List.range pages.length) excerpts) :
    excerpts.map (·.text) = pages.map (·.2) := by
  have long := whole.excerpted.length_eq
  rw [List.length_range] at long
  refine List.ext_getElem (by simp [long]) fun i inside inside' => ?_
  rw [List.length_map] at inside inside'
  obtain ⟨page, found, -, excerpted⟩ := whole.excerpted.get (by simpa using inside') inside
  simp only [List.get_eq_getElem, List.getElem_range] at found excerpted
  obtain ⟨_, rfl⟩ := List.getElem?_eq_some_iff.mp found
  rw [List.getElem_map, List.getElem_map]
  generalize excerpts[i].text = shown at excerpted ⊢
  cases excerpted with
  | whole => rfl
  | middle limit => cases limit

theorem ExcerptsOf.characters_le {most : Nat}
    (excerpted : ExcerptsOf (some most) pages indices excerpts) :
    (excerpts.map (·.text.length)).sum ≤ excerpts.length * most := by
  have each : ∀ length ∈ excerpts.map (·.text.length), length ≤ most := by
    intro length mem
    obtain ⟨excerpt, mem', rfl⟩ := List.mem_map.mp mem
    obtain ⟨i, inside, rfl⟩ := List.getElem_of_mem mem'
    obtain ⟨page, -, -, short⟩ := excerpted.excerpted.get
      (by rw [excerpted.excerpted.length_eq]; exact inside) inside
    exact short.length_le
  simpa using List.sum_le_card_nsmul _ _ each

theorem ExcerptsOf.mem {limit : Option Nat} (excerpted : ExcerptsOf limit pages indices excerpts)
    {excerpt : SuggestionExcerpt} (mem : excerpt ∈ excerpts) :
    ∃ page ∈ pages, excerpt.pageNumber = page.1 ∧ ExcerptOf limit page.2 excerpt.text := by
  obtain ⟨i, inside, rfl⟩ := List.getElem_of_mem mem
  obtain ⟨page, found, number, shown⟩ := excerpted.excerpted.get
    (by rw [excerpted.excerpted.length_eq]; exact inside) inside
  exact ⟨page, List.mem_of_getElem? found, number, shown⟩

theorem buildSample_spec (nonempty : textPages normalized ≠ []) :
    ∃ prompt, buildSample normalized structured depth = .ok prompt ∧
      prompt.totalPages = normalized.pages.length ∧
      prompt.sampling = (samplingPlan (textPages normalized) depth).sampling ∧
      prompt.headingHints = headingHints structured ∧
      ExcerptsOf (samplingPlan (textPages normalized) depth).excerptCharacters
        (textPages normalized) (distributedIndices (textPages normalized).length
          (samplingPlan (textPages normalized) depth).pageLimit) prompt.excerpts := by
  have some : (textPages normalized).isEmpty = false := List.isEmpty_eq_false_iff.mpr nonempty
  refine ⟨⟨_, _, _, _⟩, ?_, rfl, rfl, rfl, sample_excerpts nonempty depth⟩
  simp only [buildSample, some]
  rfl

/-- How long a sample gets, and what it shows. -/
structure SampleHolds (normalized : NormalizedDocument) (structured : StructuredDocument)
    (depth : SampleDepth) (prompt : SuggestionPrompt) : Prop where
  serialized : prompt.toJson.length = promptLength prompt
  refused : userPrompt prompt = .error inputTooLarge ↔
    maxUserPromptCharacters < promptLength prompt
  distributed : prompt.sampling = .distributed → promptLength prompt ≤ maxUserPromptCharacters
  fullText : prompt.sampling = .fullText →
    36 * (textPages normalized).length + excerptNewlines prompt ≤ 7944 →
      promptLength prompt ≤ maxUserPromptCharacters
  expanded : prompt.sampling = .expanded → excerptNewlines prompt ≤ 6420 →
    promptLength prompt ≤ maxUserPromptCharacters
  excerpts : ∃ indices, ExcerptsOf (samplingPlan (textPages normalized) depth).excerptCharacters
    (textPages normalized) indices prompt.excerpts
  hints : HintsOf (hintTitles (preorder structured.nodes)) prompt.headingHints

theorem textPages_mem {page : Nat × List Char} (mem : page ∈ textPages normalized) :
    ∃ source ∈ normalized.pages, page = (source.pageNumber, pageText source) := by
  obtain ⟨source, mem', taken⟩ := List.mem_filterMap.mp mem
  split at taken
  · cases taken
  · exact ⟨source, mem', (Option.some.inj taken).symm⟩

theorem hintTitles_mem {nodes : List StructureNode} {hint : List Char}
    (mem : hint ∈ hintTitles nodes) : ∃ node ∈ nodes, ∃ title ∈ node.title,
      hint = hintTitle title := by
  obtain ⟨node, mem', taken⟩ := List.mem_filterMap.mp (List.mem_filter.mp mem).1
  obtain ⟨title, titled, rfl⟩ := Option.map_eq_some_iff.mp taken
  exact ⟨node, mem', title, titled, rfl⟩

theorem samplingPlan_cases (pages : List (Nat × List Char)) (depth : SampleDepth) :
    (totalCharacters pages ≤ fullTextMaxCharacters ∧
        samplingPlan pages depth = ⟨.fullText, pages.length, none⟩) ∨
      samplingPlan pages depth = ⟨.distributed, primaryDistributedPages,
        some primaryExcerptCharacters⟩ ∨
      samplingPlan pages depth = ⟨.expanded, expandedDistributedPages,
        some expandedExcerptCharacters⟩ := by
  unfold samplingPlan
  split
  · next short => exact .inl ⟨short, rfl⟩
  · cases depth with
    | primary => exact .inr (.inl rfl)
    | expanded => exact .inr (.inr rfl)

theorem excerptNewlines_le (prompt : SuggestionPrompt) :
    excerptNewlines prompt ≤ excerptCharacters prompt :=
  List.sum_le_sum fun _ _ => List.count_le_length

/-- A sample of plain text is as long as its parts say, and within the limit unless very many
small pages or newlines are shown. -/
theorem sample_holds
    (plainBlocks : ∀ page ∈ normalized.pages, ∀ block ∈ page.content,
      PlainText block.text.toList)
    (plainTitles : ∀ node ∈ preorder structured.nodes, ∀ title ∈ node.title,
      PlainText title.toList)
    (numbered : ∀ page ∈ normalized.pages, page.pageNumber ≤ u32Max)
    (counted : normalized.pages.length < 2 ^ 64) (nonempty : textPages normalized ≠ []) :
    ∃ prompt, buildSample normalized structured depth = .ok prompt ∧
      SampleHolds normalized structured depth prompt := by
  obtain ⟨prompt, built, total, sampling, headings, excerpted⟩ :=
    @buildSample_spec normalized structured depth nonempty
  have hints : HintsOf (hintTitles (preorder structured.nodes)) prompt.headingHints :=
    headings ▸ headingHints_hintsOf structured
  have plain : PlainPrompt prompt := by
    constructor
    · intro hint mem
      obtain ⟨node, mem', title, titled, rfl⟩ := hintTitles_mem (hints.inOrder.subset mem)
      exact hintTitle_plain (plainTitles node mem' title titled)
    · intro excerpt mem
      obtain ⟨page, mem', -, shown⟩ := excerpted.mem mem
      obtain ⟨source, mem'', rfl⟩ := textPages_mem mem'
      exact plainText_excerpt (plainText_pageText (plainBlocks source mem'')) shown
  have short : ∀ hint ∈ prompt.headingHints, hint.length ≤ maxHeadingCharacters := by
    intro hint mem
    obtain ⟨node, -, title, -, rfl⟩ := hintTitles_mem (hints.inOrder.subset mem)
    exact hintTitle_length title
  have numbers : ∀ excerpt ∈ prompt.excerpts, excerpt.pageNumber ≤ u32Max := by
    intro excerpt mem
    obtain ⟨page, mem', same, -⟩ := excerpted.mem mem
    obtain ⟨source, mem'', rfl⟩ := textPages_mem mem'
    rw [same]
    exact numbered source mem''
  have bound := promptLength_le (total ▸ counted) hints.count short numbers
  have shown : prompt.excerpts.length = min (textPages normalized).length
      (samplingPlan (textPages normalized) depth).pageLimit := by
    rw [← excerpted.excerpted.length_eq, distributedIndices_length]
  have serialized := SuggestionPrompt.toJson_length plain
  refine ⟨prompt, built, serialized, ?_, ?_, ?_, ?_, ⟨_, excerpted⟩, hints⟩
  · rw [userPrompt, serialized]
    split
    · next long => simp [long]
    · next fits => simp [fits]
  · intro kind
    obtain ⟨-, plan⟩ | plan | plan := samplingPlan_cases (textPages normalized) depth
    · simp [plan, kind] at sampling
    · rw [plan] at excerpted shown
      have characters : excerptCharacters prompt ≤ prompt.excerpts.length * 600 :=
        excerpted.characters_le
      have newlines := excerptNewlines_le prompt
      have pages : prompt.excerpts.length ≤ 5 := shown ▸ Nat.min_le_right _ _
      have name : prompt.sampling.name.length = 11 := by rw [kind]; rfl
      rw [name] at bound
      simp only [maxUserPromptCharacters]
      omega
    · simp [plan, kind] at sampling
  · intro kind room
    obtain ⟨short, plan⟩ | plan | plan := samplingPlan_cases (textPages normalized) depth
    · rw [plan] at excerpted shown
      rw [distributedIndices_all] at excerpted
      have texts := congrArg (fun texts => (texts.map List.length).sum) excerpted.texts_eq
      simp only [List.map_map] at texts
      have characters : excerptCharacters prompt = totalCharacters (textPages normalized) := texts
      have pages : prompt.excerpts.length = (textPages normalized).length := by
        simpa using shown
      have name : prompt.sampling.name.length = 8 := by rw [kind]; rfl
      rw [name, characters, pages] at bound
      simp only [maxUserPromptCharacters, fullTextMaxCharacters] at short ⊢
      omega
    · simp [plan, kind] at sampling
    · simp [plan, kind] at sampling
  · intro kind room
    obtain ⟨-, plan⟩ | plan | plan := samplingPlan_cases (textPages normalized) depth
    · simp [plan, kind] at sampling
    · simp [plan, kind] at sampling
    · rw [plan] at excerpted shown
      have characters : excerptCharacters prompt ≤ prompt.excerpts.length * 800 :=
        excerpted.characters_le
      have pages : prompt.excerpts.length ≤ 9 := shown ▸ Nat.min_le_right _ _
      have name : prompt.sampling.name.length = 8 := by rw [kind]; rfl
      rw [name] at bound
      simp only [maxUserPromptCharacters]
      omega

end Samples

/-! ## Many small pages -/

/-- A page that shows one letter. -/
def letterPage (number : Nat) : NormalizedPage where
  pageNumber := number
  content := [⟨"block", .text, "a", ⟨number, number, none, .nativeText⟩⟩]
  warnings := []
  requiresVisualProcessing := false

def letterDocument (count : Nat) : NormalizedDocument where
  documentId := "document"
  normalizationVersion := "1"
  pages := (List.range count).map fun index => letterPage (index + 1)
  warnings := []

def plainStructure : StructuredDocument where
  documentId := "document"
  structureVersion := "1"
  pages := []
  nodes := []
  warnings := []

section Letters

variable {count : Nat}

theorem letterDocument_textPages :
    textPages (letterDocument count) =
      (List.range count).map fun index => (index + 1, ['a']) := by
  have text (number : Nat) : pageText (letterPage number) = ['a'] := by
    have letter : trim ['a'] = ['a'] := by decide
    simp [pageText, letterPage, letter, joined, List.intercalate]
  rw [textPages, letterDocument, List.filterMap_map, ← List.filterMap_eq_map]
  congr 1
  funext index
  simp only [Function.comp_apply, text]
  rfl

theorem letterDocument_plain : ∀ page ∈ (letterDocument count).pages, ∀ block ∈ page.content,
    PlainText block.text.toList := by
  intro page mem block mem'
  obtain ⟨index, -, rfl⟩ := List.mem_map.mp mem
  obtain rfl := List.mem_singleton.mp mem'
  simp [PlainText, escapeChar, shortEscapes]

theorem letterDocument_numbered (few : count ≤ u32Max) :
    ∀ page ∈ (letterDocument count).pages, page.pageNumber ≤ u32Max := by
  intro page mem
  obtain ⟨index, inside, rfl⟩ := List.mem_map.mp mem
  exact le_trans (List.mem_range.mp inside) few

theorem letterDocument_sampled (few : count ≤ fullTextMaxCharacters) (depth : SampleDepth) :
    samplingPlan (textPages (letterDocument count)) depth = ⟨.fullText, count, none⟩ := by
  have total : totalCharacters (textPages (letterDocument count)) = count := by
    simp [totalCharacters, letterDocument_textPages, Function.comp_def]
  unfold samplingPlan
  rw [if_pos (total.symm ▸ few), letterDocument_textPages, List.length_map, List.length_range]

theorem excerpts_room (excerpts : List SuggestionExcerpt) :
    25 * excerpts.length ≤ (excerpts.map fun excerpt => 25 + digits excerpt.pageNumber +
      excerpt.text.length + excerpt.text.count '\n').sum := by
  induction excerpts with
  | nil => exact Nat.zero_le _
  | cons excerpt rest ih =>
      simp only [List.map_cons, List.sum_cons, List.length_cons]
      omega

end Letters

/-- A sample of plain text either finds no text or holds what a sample is to hold. -/
theorem buildSample_plain (normalized : NormalizedDocument) (structured : StructuredDocument)
    (depth : SampleDepth)
    (plainBlocks : ∀ page ∈ normalized.pages, ∀ block ∈ page.content,
      PlainText block.text.toList)
    (plainTitles : ∀ node ∈ preorder structured.nodes, ∀ title ∈ node.title,
      PlainText title.toList)
    (numbered : ∀ page ∈ normalized.pages, page.pageNumber ≤ u32Max)
    (counted : normalized.pages.length < 2 ^ 64) :
    (textPages normalized = [] ∧
        buildSample normalized structured depth = .error sourceTextUnavailable) ∨
      ∃ prompt, buildSample normalized structured depth = .ok prompt ∧
        SampleHolds normalized structured depth prompt := by
  by_cases nothing : textPages normalized = []
  · refine .inl ⟨nothing, ?_⟩
    simp only [buildSample, nothing]
    rfl
  · exact .inr (sample_holds plainBlocks plainTitles numbered counted nothing)

/-- A section, and a further one below it. -/
def titledStructure : StructuredDocument :=
  { plainStructure with nodes := [⟨"1", .section, some "Fees", 1, [], [],
    [⟨"2", .section, some "Late fees", 2, [], [], []⟩]⟩] }

theorem buildSample_letters :
    ∃ prompt, buildSample (letterDocument 3) titledStructure .primary = .ok prompt ∧
      prompt.excerpts.map (·.pageNumber) = [1, 2, 3] ∧
      prompt.headingHints = ["Fees".toList, "Late fees".toList] ∧
      SampleHolds (letterDocument 3) titledStructure .primary prompt := by
  have shown : ((buildSample (letterDocument 3) titledStructure .primary).toOption.map
      fun prompt => (prompt.excerpts.map (·.pageNumber), prompt.headingHints)) =
      some ([1, 2, 3], ["Fees".toList, "Late fees".toList]) := by
    decide +kernel
  rcases buildSample_plain (letterDocument 3) titledStructure .primary letterDocument_plain
    (by simp [titledStructure, preorder, preorderNode, PlainText, escapeChar, shortEscapes])
    (letterDocument_numbered (by decide)) (by decide) with ⟨nothing, -⟩ | ⟨prompt, built, holds⟩
  · simp [letterDocument_textPages] at nothing
  · simp only [built, Except.toOption, Option.map_some, Option.some.injEq, Prod.mk.injEq] at shown
    exact ⟨prompt, built, shown.1, shown.2, holds⟩

/-- A thousand pages of one letter are shown as full text, and the prompt is refused. -/
theorem thousand_letters_refused :
    (∀ page ∈ (letterDocument 1000).pages, ∀ block ∈ page.content, PlainText block.text.toList) ∧
      ∃ prompt, buildSample (letterDocument 1000) plainStructure .primary = .ok prompt ∧
        userPrompt prompt = .error inputTooLarge := by
  refine ⟨letterDocument_plain, ?_⟩
  have nonempty : textPages (letterDocument 1000) ≠ [] := by
    rw [letterDocument_textPages]
    simp
  have counted : (letterDocument 1000).pages.length < 2 ^ 64 := by
    simp [letterDocument]
  obtain ⟨prompt, built, holds⟩ := @sample_holds (letterDocument 1000) plainStructure .primary
    letterDocument_plain (by simp [plainStructure, preorder])
    (letterDocument_numbered (by decide)) counted nonempty
  obtain ⟨again, built', -, -, -, excerpted⟩ :=
    @buildSample_spec (letterDocument 1000) plainStructure .primary nonempty
  obtain rfl : prompt = again := Except.ok.inj (built.symm.trans built')
  have shown : prompt.excerpts.length = 1000 := by
    have length := excerpted.excerpted.length_eq
    rw [distributedIndices_length, letterDocument_sampled (by decide),
      letterDocument_textPages, List.length_map, List.length_range] at length
    exact length.symm
  refine ⟨prompt, built, holds.refused.mpr ?_⟩
  have room := excerpts_room prompt.excerpts
  rw [shown] at room
  simp only [promptLength, maxUserPromptCharacters]
  omega

end DocumentSummarizer.Pipeline.ProfileSuggestion
