import DocumentSummarizer.Library.EvenSpacing
import DocumentSummarizer.Pipeline.Contracts
import DocumentSummarizer.Pipeline.SourceText

/-! # Profile suggestion samples

The pages and headings that the classifier of a document's purpose is shown:
the whole text of a short document, excerpts of spread pages of a long one.
-/

namespace DocumentSummarizer.Pipeline.ProfileSuggestion

open Library

def fullTextMaxCharacters : Nat := 6000
def primaryDistributedPages : Nat := 5
def primaryExcerptCharacters : Nat := 600
def expandedDistributedPages : Nat := 9
def expandedExcerptCharacters : Nat := 800
def maxHeadingHints : Nat := 16
def maxHeadingCharacters : Nat := 120
def maxUserPromptCharacters : Nat := 16000

inductive SampleDepth where
  | primary
  | expanded

inductive ProfileSuggestionSampling where
  | fullText
  | distributed
  | expanded
  deriving DecidableEq

structure SuggestionExcerpt where
  pageNumber : Nat
  text : List Char

structure SuggestionPrompt where
  totalPages : Nat
  sampling : ProfileSuggestionSampling
  headingHints : List (List Char)
  excerpts : List SuggestionExcerpt

def suggestionFailure (code message : String) (recoverable : Bool) : PipelineFailure :=
  { code, message, stage := none, recoverable }

def sourceTextUnavailable : PipelineFailure :=
  suggestionFailure "PROFILE_SUGGESTION_SOURCE_TEXT_UNAVAILABLE"
    "The document has no normalized native text to classify" false

/-! ## Pages -/

def pageText (page : NormalizedPage) : List Char :=
  joined ['\n'] ((page.content.map fun block => trim block.text.toList).filter (!·.isEmpty))

/-- The pages with text: their numbers and texts. -/
def textPages (normalized : NormalizedDocument) : List (Nat × List Char) :=
  normalized.pages.filterMap fun page =>
    if (pageText page).isEmpty then none else some (page.pageNumber, pageText page)

def totalCharacters (pages : List (Nat × List Char)) : Nat :=
  (pages.map (·.2.length)).sum

/-- What a sample takes of the pages; without a limit, an excerpt is the whole page. -/
structure SamplingPlan where
  sampling : ProfileSuggestionSampling
  pageLimit : Nat
  excerptCharacters : Option Nat

def samplingPlan (pages : List (Nat × List Char)) (depth : SampleDepth) : SamplingPlan :=
  if totalCharacters pages ≤ fullTextMaxCharacters then ⟨.fullText, pages.length, none⟩
  else
    match depth with
    | .primary => ⟨.distributed, primaryDistributedPages, some primaryExcerptCharacters⟩
    | .expanded => ⟨.expanded, expandedDistributedPages, some expandedExcerptCharacters⟩

def distributedIndices (length requested : Nat) : List Nat :=
  let count := min length requested
  if count = 0 then []
  else if count = 1 then [0]
  else (List.range count).map (spaced count length)

/-- What stands in an excerpt for the middle that is left out. -/
def marker : List Char := ['\n', '[', '…', ']', '\n']

def boundedMiddleExcerpt (text : List Char) (limit : Nat) : List Char :=
  if text.length ≤ limit then text
  else
    let retained := limit - marker.length
    let front := (retained + 1) / 2
    let back := retained - front
    text.take front ++ marker ++ text.drop (text.length - back)

def excerptText (limit : Option Nat) (text : List Char) : List Char :=
  match limit with
  | none => text
  | some limit => boundedMiddleExcerpt text limit

/-! ## Headings -/

def boundedPrefix (text : List Char) (limit : Nat) : List Char :=
  text.take limit

/-- The titles taken so far; `seen` is the set of them. -/
structure HeadingHints where
  headings : List (List Char)
  seen : List (List Char)

def hintTitle (title : String) : List Char :=
  boundedPrefix (joined [' '] (splitWhitespace title.toList)) maxHeadingCharacters

def addTitle (title : Option String) (hints : HeadingHints) : HeadingHints :=
  match title.map hintTitle with
  | none => hints
  | some hint =>
    if hint ≠ [] ∧ hint ∉ hints.seen then ⟨hints.headings ++ [hint], hint :: hints.seen⟩
    else hints

mutual

def collectNodeHints : StructureNode → HeadingHints → HeadingHints
  | ⟨_, _, title, _, _, _, children⟩, hints =>
    if maxHeadingHints ≤ hints.headings.length then hints
    else collectHeadingHints children (addTitle title hints)

/-- Once there are enough headings, the later nodes add none. -/
def collectHeadingHints : List StructureNode → HeadingHints → HeadingHints
  | [], hints => hints
  | node :: rest, hints => collectHeadingHints rest (collectNodeHints node hints)

end

def headingHints (structured : StructuredDocument) : List (List Char) :=
  (collectHeadingHints structured.nodes ⟨[], []⟩).headings

/-! ## Indices -/

section Indices

variable {length requested index : Nat}

theorem distributedIndices_length :
    (distributedIndices length requested).length = min length requested := by
  simp only [distributedIndices]
  split
  · next none => simp [none]
  · split
    · next one => simp [one]
    · simp

theorem distributedIndices_lt (mem : index ∈ distributedIndices length requested) :
    index < length := by
  simp only [distributedIndices] at mem
  split at mem
  · cases mem
  · next some =>
      split at mem
      · obtain rfl := List.mem_singleton.mp mem
        omega
      · obtain ⟨slot, inside, rfl⟩ := List.mem_map.mp mem
        have many : 2 ≤ min length requested := by omega
        exact spaced_inside many (Nat.min_le_left _ _) (List.mem_range.mp inside)

theorem distributedIndices_ascending : (distributedIndices length requested).Pairwise (· < ·) := by
  simp only [distributedIndices]
  split
  · exact .nil
  · split
    · exact List.pairwise_singleton _ _
    · have many : 2 ≤ min length requested := by omega
      exact List.pairwise_map.mpr (List.pairwise_lt_range.imp fun less =>
        spaced_lt many (Nat.min_le_left _ _) less)

theorem distributedIndices_ends (nonempty : 0 < length)
    (wide : 2 ≤ requested ∨ requested = length) :
    (distributedIndices length requested).head? = some 0 ∧
      (distributedIndices length requested).getLast? = some (length - 1) := by
  simp only [distributedIndices]
  split
  · omega
  · split
    · have single : length = 1 := by omega
      simp [single]
    · have many : 2 ≤ min length requested := by omega
      obtain ⟨slots, count⟩ : ∃ slots, min length requested = slots + 1 :=
        ⟨min length requested - 1, by omega⟩
      have last : spaced (min length requested) length slots = length - 1 := by
        have place := @spaced_last (min length requested) length many
        rwa [count, Nat.add_sub_cancel, ← count] at place
      constructor
      · rw [List.head?_map, count, List.range_succ_eq_map, List.head?_cons, Option.map_some,
          spaced_zero]
      · rw [List.getLast?_map, count, List.range_succ, List.getLast?_concat, Option.map_some,
          ← count, last]

end Indices

/-! ## Samples -/

def buildSample (normalized : NormalizedDocument) (structured : StructuredDocument)
    (depth : SampleDepth) : Except PipelineFailure SuggestionPrompt :=
  let pages := textPages normalized
  if pages.isEmpty then .error sourceTextUnavailable
  else
    let plan := samplingPlan pages depth
    .ok {
      totalPages := normalized.pages.length
      sampling := plan.sampling
      headingHints := headingHints structured
      excerpts := (distributedIndices pages.length plan.pageLimit).attach.map fun index =>
        let page := pages.get ⟨index.1, distributedIndices_lt index.2⟩
        ⟨page.1, excerptText plan.excerptCharacters page.2⟩ }

/-! ## Excerpts -/

/-- An excerpt is the whole text, or as many characters as are allowed of its start and end
around the marker. -/
inductive ExcerptOf (limit : Option Nat) (text : List Char) : List Char → Prop
  | whole : (∀ most ∈ limit, text.length ≤ most) → ExcerptOf limit text text
  | middle {front back : List Char} {most : Nat} : limit = some most → front <+: text →
      back <:+ text → most < text.length → (front ++ marker ++ back).length = most →
      ExcerptOf limit text (front ++ marker ++ back)

theorem marker_length : marker.length = 5 :=
  rfl

theorem excerptText_excerptOf {limit : Option Nat} (roomy : ∀ most ∈ limit, 5 ≤ most)
    (text : List Char) : ExcerptOf limit text (excerptText limit text) := by
  cases limit with
  | none => exact .whole (by simp)
  | some most =>
      have room := roomy most rfl
      simp only [excerptText, boundedMiddleExcerpt]
      split
      · next short => exact .whole (by simpa using short)
      · next long =>
          refine .middle rfl (List.take_prefix _ _) (List.drop_suffix _ _) (by omega) ?_
          simp only [List.length_append, List.length_take, List.length_drop, marker_length]
          omega

theorem ExcerptOf.length_le {text excerpt : List Char} {most : Nat}
    (excerpted : ExcerptOf (some most) text excerpt) : excerpt.length ≤ most := by
  cases excerpted with
  | whole short => exact short most rfl
  | middle limit _ _ _ length =>
      cases limit
      exact length.le

/-- The excerpts of a sample are those of pages in ascending order. -/
structure ExcerptsOf (limit : Option Nat) (pages : List (Nat × List Char)) (indices : List Nat)
    (excerpts : List SuggestionExcerpt) : Prop where
  ascending : indices.Pairwise (· < ·)
  first : indices.head? = some 0
  last : indices.getLast? = some (pages.length - 1)
  excerpted : List.Forall₂ (fun index excerpt => ∃ page, pages[index]? = some page ∧
    excerpt.pageNumber = page.1 ∧ ExcerptOf limit page.2 excerpt.text) indices excerpts

theorem attach_matched {α β : Type} {items : List α} {related : α → β → Prop}
    {f : { a // a ∈ items } → β} (each : ∀ a, related a.1 (f a)) :
    List.Forall₂ related items (items.attach.map f) := by
  have matched : List.Forall₂ related (items.attach.map Subtype.val) (items.attach.map f) := by
    rw [List.forall₂_map_left_iff, List.forall₂_map_right_iff, List.forall₂_same]
    exact fun a _ => each a
  rwa [List.attach_map_subtype_val] at matched

theorem sample_excerpts {pages : List (Nat × List Char)} (nonempty : pages ≠ [])
    (depth : SampleDepth) :
    ExcerptsOf (samplingPlan pages depth).excerptCharacters pages
      (distributedIndices pages.length (samplingPlan pages depth).pageLimit)
      ((distributedIndices pages.length (samplingPlan pages depth).pageLimit).attach.map
        fun index => ⟨(pages.get ⟨index.1, distributedIndices_lt index.2⟩).1,
          excerptText (samplingPlan pages depth).excerptCharacters
            (pages.get ⟨index.1, distributedIndices_lt index.2⟩).2⟩) := by
  have wide : 2 ≤ (samplingPlan pages depth).pageLimit ∨
      (samplingPlan pages depth).pageLimit = pages.length := by
    unfold samplingPlan
    split
    · exact .inr rfl
    · cases depth <;> exact .inl (by decide)
  have roomy : ∀ most ∈ (samplingPlan pages depth).excerptCharacters, 5 ≤ most := by
    unfold samplingPlan
    split
    · simp
    · cases depth <;> simp [primaryExcerptCharacters, expandedExcerptCharacters]
  obtain ⟨first, last⟩ := distributedIndices_ends (List.length_pos_iff.mpr nonempty) wide
  refine ⟨distributedIndices_ascending, first, last, ?_⟩
  refine attach_matched fun index => ?_
  exact ⟨_, by simp [distributedIndices_lt index.2], rfl, excerptText_excerptOf roomy _⟩

/-! ## Heading hints -/

mutual

def preorderNode : StructureNode → List StructureNode
  | ⟨nodeId, kind, title, level, blockIds, sourceSpans, children⟩ =>
    ⟨nodeId, kind, title, level, blockIds, sourceSpans, children⟩ :: preorder children

def preorder : List StructureNode → List StructureNode
  | [] => []
  | node :: rest => preorderNode node ++ preorder rest

end

/-- The titles of nodes as hints show them. -/
def hintTitles (nodes : List StructureNode) : List (List Char) :=
  (nodes.filterMap fun node => node.title.map hintTitle).filter (!·.isEmpty)

def visitTitle (hints : HeadingHints) (node : StructureNode) : HeadingHints :=
  if maxHeadingHints ≤ hints.headings.length then hints else addTitle node.title hints

theorem foldl_visitTitle_full {hints : HeadingHints}
    (full : maxHeadingHints ≤ hints.headings.length) (nodes : List StructureNode) :
    nodes.foldl visitTitle hints = hints := by
  induction nodes with
  | nil => rfl
  | cons node rest ih => rw [List.foldl_cons, visitTitle, if_pos full, ih]

mutual

theorem collectNodeHints_eq (node : StructureNode) (hints : HeadingHints) :
    collectNodeHints node hints = (preorderNode node).foldl visitTitle hints := by
  obtain ⟨nodeId, kind, title, level, blockIds, sourceSpans, children⟩ := node
  rw [collectNodeHints, preorderNode]
  split
  · next full => rw [foldl_visitTitle_full full]
  · next room =>
      rw [List.foldl_cons, visitTitle, if_neg room]
      exact collectHeadingHints_eq children _

theorem collectHeadingHints_eq (nodes : List StructureNode) (hints : HeadingHints) :
    collectHeadingHints nodes hints = (preorder nodes).foldl visitTitle hints := by
  cases nodes with
  | nil => rw [collectHeadingHints, preorder, List.foldl_nil]
  | cons node rest =>
      rw [collectHeadingHints, preorder, List.foldl_append, collectNodeHints_eq node,
        collectHeadingHints_eq rest]

end

/-- The hints taken from titles: distinct ones in their order, and all of them unless there
are enough. -/
structure HintsOf (titles : List (List Char)) (hints : List (List Char)) : Prop where
  count : hints.length ≤ maxHeadingHints
  distinct : hints.Nodup
  filled : ∀ hint ∈ hints, hint ≠ []
  inOrder : hints.Sublist titles
  complete : hints.length = maxHeadingHints ∨ ∀ title ∈ titles, title ∈ hints

theorem hintTitles_concat (nodes : List StructureNode) (node : StructureNode) :
    hintTitles (nodes ++ [node]) = hintTitles nodes ++ hintTitles [node] := by
  simp [hintTitles]

/-- One more node keeps the hints those of the titles seen. -/
theorem visitTitle_hintsOf {visited : List StructureNode} {hints : HeadingHints}
    (seen : ∀ title, title ∈ hints.seen ↔ title ∈ hints.headings)
    (kept : HintsOf (hintTitles visited) hints.headings) (node : StructureNode) :
    (∀ title, title ∈ (visitTitle hints node).seen ↔ title ∈ (visitTitle hints node).headings) ∧
      HintsOf (hintTitles (visited ++ [node])) (visitTitle hints node).headings := by
  rw [hintTitles_concat, visitTitle]
  split
  · next full =>
      have enough : hints.headings.length = maxHeadingHints := le_antisymm kept.count full
      exact ⟨seen, kept.count, kept.distinct, kept.filled,
        kept.inOrder.trans (List.sublist_append_left _ _), .inl enough⟩
  · next room =>
      have all := kept.complete.resolve_left (by omega)
      cases titled : node.title with
      | none =>
          have nothing : hintTitles [node] = [] := by simp [hintTitles, titled]
          rw [nothing, List.append_nil]
          exact ⟨seen, kept⟩
      | some title =>
          simp only [addTitle, Option.map_some]
          split
          · next new =>
              have taken : hintTitles [node] = [hintTitle title] := by
                simp [hintTitles, titled, new.1]
              rw [taken]
              refine ⟨fun other => by simp [seen, or_comm], ?_, ?_, ?_, ?_, .inr ?_⟩
              · rw [List.length_append, List.length_singleton]
                omega
              · refine List.Nodup.append kept.distinct (List.nodup_singleton _) ?_
                simpa [List.disjoint_singleton, seen] using new.2
              · simpa [or_imp, forall_and] using ⟨kept.filled, new.1⟩
              · exact kept.inOrder.append (List.Sublist.refl _)
              · intro other mem
                exact List.mem_append.mpr ((List.mem_append.mp mem).imp_left (all other))
          · next old =>
              have known : ∀ other ∈ hintTitles [node], other ∈ hints.headings := by
                intro other mem
                simp only [hintTitles, List.filterMap_cons, titled, Option.map_some,
                  List.filterMap_nil, List.mem_filter, List.mem_singleton] at mem
                obtain ⟨rfl, filled⟩ := mem
                rw [← seen]
                by_contra new
                exact old ⟨by simpa using filled, new⟩
              refine ⟨seen, kept.count, kept.distinct, kept.filled,
                kept.inOrder.trans (List.sublist_append_left _ _), .inr ?_⟩
              intro other mem
              exact (List.mem_append.mp mem).elim (all other) (known other)

theorem headingHints_hintsOf (structured : StructuredDocument) :
    HintsOf (hintTitles (preorder structured.nodes)) (headingHints structured) := by
  have run : ∀ (rest visited : List StructureNode) (hints : HeadingHints),
      (∀ title, title ∈ hints.seen ↔ title ∈ hints.headings) →
      HintsOf (hintTitles visited) hints.headings →
      HintsOf (hintTitles (visited ++ rest)) (rest.foldl visitTitle hints).headings := by
    intro rest
    induction rest with
    | nil =>
        intro visited hints _ kept
        rwa [List.append_nil]
    | cons node rest ih =>
        intro visited hints seen kept
        obtain ⟨seen', kept'⟩ := visitTitle_hintsOf seen kept node
        rw [List.append_cons]
        exact ih _ _ seen' kept'
  have start : HintsOf (hintTitles []) [] :=
    ⟨Nat.zero_le _, List.nodup_nil, by simp, List.Sublist.refl _, .inr (by simp [hintTitles])⟩
  rw [headingHints, collectHeadingHints_eq]
  exact run _ [] _ (fun title => Iff.rfl) start

end DocumentSummarizer.Pipeline.ProfileSuggestion
