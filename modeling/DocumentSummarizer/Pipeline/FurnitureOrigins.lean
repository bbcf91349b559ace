import DocumentSummarizer.Library.OptionSequence
import DocumentSummarizer.Pipeline.PageFurniture

/-! # Where furniture candidates come from

Every candidate is a whole line, or the whole lines of a notice, and says by its
key which lines it recurs with.
-/

namespace DocumentSummarizer.Pipeline

open Library

namespace Furniture

section Origins

variable (unicode : Unicode) (document : NormalizedDocument) (policy : FurniturePolicy)

def linesOf (block : NormalizedBlock) : List Located :=
  locatedLines block.text.toList

def pageLine (block : NormalizedBlock) (line : Located) : PageLine :=
  ⟨block.blockId, line.start, line.finish, trim line.text⟩

/-- The first or the last visible line of its page. -/
def EdgeLine (page : NormalizedPage) (block : NormalizedBlock) (line : Located) : Prop :=
  (pageLines page).head? = some (pageLine block line) ∨
    (pageLines page).getLast? = some (pageLine block line)

/-- More than half of the native pages, and at least two. -/
def metadataMinimum : Nat :=
  max (document.nativePages.toFinset.card / 2 + 1) 2

/-- The key that a footer row has by the metadata grammar, or by its initials row. -/
def RowKey (text key : List Char) : Prop :=
  (∃ strong, metadataKey unicode text = some (key, strong)) ∨
    key = normalizedText unicode text ∧ operative unicode text = false

/-- The canonical form of a line that the policy compares. -/
def lineKey (text : List Char) : List Char :=
  if policy = .original then repeatedKey unicode text else normalizedText unicode text

/-- The line is in that place among the visible lines of its page, from the top or the bottom. -/
def PlacedAt (page : NormalizedPage) (block : NormalizedBlock) (line : Located) (side : String)
    (position : Nat) : Prop :=
  side = "top" ∧ (pageLines page)[position]? = some (pageLine block line) ∨
    side = "bottom" ∧ (pageLines page).reverse[position]? = some (pageLine block line)

/-- Why a block of a page has a candidate. -/
inductive Origin (page : NormalizedPage) (block : NormalizedBlock) : Candidate → Prop where
  | edgeNumber {line : Located} {minimum : Nat} (mem : line ∈ linesOf block)
      (edge : EdgeLine page block line)
      (number : isPageNumber unicode line.text page.pageNumber = true) :
      Origin page block
        ⟨block.blockId, page.pageNumber, line.start, line.finish, none, minimum⟩
  | filingHeader {line : Located} {minimum : Nat} (mem : line ∈ linesOf block)
      (first : document.pages.head? = some page)
      (top : (pageLines page).head? = some (pageLine block line))
      (header : edgarHeader unicode (trim line.text) = true) :
      Origin page block
        ⟨block.blockId, page.pageNumber, line.start, line.finish, none, minimum⟩
  | row {line : Located} {side : String} {position : Nat} {key : List Char}
      (running : policy = .runningMetadata) (mem : line ∈ linesOf block)
      (placed : PlacedAt page block line side position) (near : position < 4)
      (keyed : RowKey unicode (trim line.text) key) :
      Origin page block
        ⟨block.blockId, page.pageNumber, line.start, line.finish,
          some (sideKey side position key), metadataMinimum document⟩
  | label {line : Located} (original : policy = .original) (mem : line ∈ linesOf block)
      (edge : EdgeLine page block line)
      (running : runningLabel unicode line.text page.pageNumber = true) :
      Origin page block
        ⟨block.blockId, page.pageNumber, line.start, line.finish,
          some (repeatedKey unicode line.text), 2⟩
  | notice {front notice attached back : List Located} {first last : Located}
      (lines : linesOf block = front ++ (first :: notice ++ attached ++ back))
      (final : (first :: notice ++ attached).getLast? = some last)
      (copyright : containsText "copyright".toList (normalizedText unicode first.text) = true)
      (text : isNotice unicode ((first :: notice).flatMap (·.text)) = true)
      (visible : ∀ line ∈ first :: notice,
        blank line.text = false ∧ numberedHeading unicode line.text = false)
      (stops : ∀ line ∈ (attached ++ back).head?,
        blank line.text = true ∨ numberedHeading unicode line.text = true)
      (counters : ∀ line ∈ attached,
        blank line.text = true ∨ isPageNumber unicode line.text page.pageNumber = true)
      (ends : ∀ line ∈ back.head?,
        blank line.text = false ∧ isPageNumber unicode line.text page.pageNumber = false) :
      Origin page block
        ⟨block.blockId, page.pageNumber, first.start, last.finish,
          some (lineKey unicode policy first.text), 2⟩

end Origins

section Text

variable {unicode : Unicode}

theorem normalizedText_trim (text : List Char) :
    normalizedText unicode (trim text) = normalizedText unicode text := by
  rw [normalizedText, normalizedText, splitWhitespace_trim]

theorem isPageNumber_trim (text : List Char) (page : Nat) :
    isPageNumber unicode (trim text) page = isPageNumber unicode text page := by
  simp only [isPageNumber, normalizedText_trim]

theorem operative_trim (text : List Char) :
    operative unicode (trim text) = operative unicode text := by
  simp only [operative, normalizedText_trim]

theorem normalizedText_of_blank {text : List Char} (h : blank text = true) :
    normalizedText unicode text = [] := by
  have empty : trim text = [] := by simpa [blank] using h
  rw [← normalizedText_trim, empty]
  exact unicode.toLowercase_nil

end Text

/-! ## Metadata candidates -/

section Metadata

variable {unicode : Unicode} {document : NormalizedDocument} {policy : FurniturePolicy}
  {page : NormalizedPage}

theorem mem_pageLines {line : PageLine} (mem : line ∈ pageLines page) :
    ∃ block ∈ page.content, ∃ located ∈ linesOf block, line = pageLine block located := by
  obtain ⟨block, block_mem, inside⟩ := List.mem_flatMap.mp mem
  obtain ⟨located, visible, rfl⟩ := List.mem_map.mp inside
  exact ⟨block, block_mem, located, (List.mem_filter.mp visible).1, rfl⟩

theorem initialsKey_spec {lines : List PageLine} {keys : List (Option (List Char × Bool))}
    {index : Nat} {text key : List Char}
    (h : initialsKey unicode lines keys index text = some key) :
    key = normalizedText unicode text ∧ operative unicode text = false := by
  unfold initialsKey at h
  split at h
  next => cases h
  next plain =>
    simp only [bind, Option.bind_eq_some_iff] at h
    obtain ⟨_, -, _, -, found⟩ := h
    split at found
    · obtain rfl := Option.some.inj found
      rw [not_or] at plain
      exact ⟨rfl, by simpa using plain.1⟩
    · cases found

theorem metadataLine_origin {pageIndex index : Nat} {line : PageLine} {candidate : Candidate}
    (running : policy = .runningMetadata) (first : pageIndex = 0 → document.pages.head? = some page)
    (found : (pageLines page)[index]? = some line)
    (mem : candidate ∈ metadataLineCandidates unicode (metadataMinimum document) pageIndex page
      (pageLines page) ((pageLines page).map fun line => metadataKey unicode line.text) index
      line) :
    ∃ block ∈ page.content, Origin unicode document policy page block candidate := by
  obtain ⟨block, block_mem, located, located_mem, rfl⟩ :=
    mem_pageLines (List.mem_of_getElem? found)
  refine ⟨block, block_mem, ?_⟩
  have inside : index < (pageLines page).length := (List.getElem?_eq_some_iff.mp found).1
  simp only [metadataLineCandidates] at mem
  split at mem
  next certain =>
    obtain rfl := List.mem_singleton.mp mem
    rcases certain with ⟨page_first, line_first, header⟩ | ⟨edge, number⟩
    · subst line_first
      rw [← List.head?_eq_getElem?] at found
      exact .filingHeader located_mem (first page_first) found header
    · refine .edgeNumber located_mem ?_ (by rwa [← isPageNumber_trim])
      rcases edge with top | bottom
      · subst top
        rw [← List.head?_eq_getElem?] at found
        exact .inl found
      · have last : index = (pageLines page).length - 1 := by omega
        rw [last, ← List.getLast?_eq_getElem?] at found
        exact .inr found
  next =>
    obtain ⟨⟨side, position⟩, side_mem, keyed⟩ := List.mem_filterMap.mp mem
    have placed : PlacedAt page block located side position := by
      rcases List.mem_cons.mp side_mem with top | rest
      · cases top
        exact .inl ⟨rfl, found⟩
      · cases List.mem_singleton.mp rest
        refine .inr ⟨rfl, ?_⟩
        rw [List.getElem?_reverse (by omega), ← found]
        congr 1
        omega
    simp only at keyed
    split at keyed
    next => cases keyed
    next near =>
      obtain ⟨key, answer, rfl⟩ := Option.map_eq_some_iff.mp keyed
      refine .row running located_mem placed (by omega) ?_
      rcases Option.or_eq_some_iff.mp answer with own | ⟨-, other⟩
      · obtain ⟨⟨key', strong⟩, hit, rfl⟩ := Option.map_eq_some_iff.mp own
        rw [List.getElem?_map, found] at hit
        exact .inl ⟨strong, hit⟩
      · split at other
        next => cases other
        next => exact .inr (initialsKey_spec other)

theorem metadata_origin {candidate : Candidate} (running : policy = .runningMetadata)
    (mem : candidate ∈ metadataCandidates unicode document) :
    ∃ page ∈ document.pages, ∃ block ∈ page.content,
      Origin unicode document policy page block candidate := by
  obtain ⟨⟨page, pageIndex⟩, page_mem, inside⟩ := List.mem_flatMap.mp mem
  obtain ⟨⟨line, index⟩, line_mem, candidate_mem⟩ := List.mem_flatMap.mp inside
  have page_at := List.mk_mem_zipIdx_iff_getElem?.mp page_mem
  have line_at := List.mk_mem_zipIdx_iff_getElem?.mp line_mem
  refine ⟨page, List.mem_of_getElem? page_at, ?_⟩
  apply metadataLine_origin running ?_ line_at candidate_mem
  rintro rfl
  rw [List.head?_eq_getElem?]
  exact page_at

end Metadata

/-! ## Edge and notice candidates -/

section Lines

variable {unicode : Unicode} {document : NormalizedDocument} {policy : FurniturePolicy}
  {page : NormalizedPage} {block : NormalizedBlock} {line : Located}

theorem visible_zipIdx (lines : List Located) :
    (lines.zipIdx.filter (!blank ·.1.text)).map (·.1) = lines.filter (!blank ·.text) := by
  have h := List.filter_map (f := Prod.fst) (p := fun line : Located => !blank line.text)
    (l := lines.zipIdx)
  rw [List.zipIdx_map_fst] at h
  exact h.symm

theorem visible_at {lines : List Located} {index : Nat} {pick : Located × Nat}
    (mem : pick ∈ lines.zipIdx.filter (!blank ·.1.text)) (same : pick.2 = index)
    (found : lines[index]? = some line) : pick.1 = line := by
  subst same
  have at_pick := List.mem_zipIdx_iff_getElem?.mp (List.mem_filter.mp mem).1
  rw [at_pick] at found
  exact Option.some.inj found

theorem edgeLine_of_isEdge {blockIndex index : Nat}
    (content : page.content[blockIndex]? = some block)
    (found : (linesOf block)[index]? = some line)
    (edge : isEdge page blockIndex (linesOf block) index = true) : EdgeLine page block line := by
  have lines := visible_zipIdx (linesOf block)
  simp only [isEdge, Bool.or_eq_true, decide_eq_true_eq, List.head?_map, List.getLast?_map,
    Option.map_eq_some_iff] at edge
  rcases edge with ⟨rfl, pick, head, same⟩ | ⟨last, pick, tail, same⟩
  · left
    have pick_line := visible_at (List.mem_of_mem_head? head) same found
    have first : ((linesOf block).filter (!blank ·.text)).head? = some line := by
      rw [← lines, List.head?_map, head, Option.map_some, pick_line]
    cases contents : page.content with
    | nil =>
        rw [contents] at content
        cases content
    | cons other rest =>
        rw [contents] at content
        obtain rfl := Option.some.inj content
        simp only [pageLines, contents, List.flatMap_cons, List.head?_append, List.head?_map]
        show ((((linesOf other).filter (!blank ·.text)).head?.map _).or _) = _
        rw [first]
        rfl
  · right
    have pick_line := visible_at (List.mem_of_getLast? tail) same found
    have final : ((linesOf block).filter (!blank ·.text)).getLast? = some line := by
      rw [← lines, List.getLast?_map, tail, Option.map_some, pick_line]
    have at_end : page.content.getLast? = some block := by
      rw [List.getLast?_eq_getElem?, ← last]
      exact content
    obtain ⟨front, contents⟩ := List.getLast?_eq_some_iff.mp at_end
    simp only [pageLines, contents, List.flatMap_append, List.flatMap_singleton,
      List.getLast?_append, List.getLast?_map]
    show ((((linesOf block).filter (!blank ·.text)).getLast?.map _).or _) = _
    rw [final]
    rfl

theorem edge_origin {blockIndex index : Nat} {candidate : Candidate}
    (original : policy = .original) (content : page.content[blockIndex]? = some block)
    (found : (linesOf block)[index]? = some line)
    (mem : candidate ∈ edgeCandidate unicode page block blockIndex (linesOf block) index line) :
    Origin unicode document policy page block candidate := by
  unfold edgeCandidate at mem
  split at mem
  next labelled =>
    obtain rfl := List.mem_singleton.mp mem
    have edge := edgeLine_of_isEdge content found labelled.1
    have line_mem := List.mem_of_getElem? found
    by_cases number : isPageNumber unicode line.text page.pageNumber = true
    · rw [if_pos number]
      exact .edgeNumber line_mem edge number
    · rw [if_neg number]
      exact .label original line_mem edge (labelled.2.resolve_left number)
  next => exact absurd mem List.not_mem_nil

theorem takeWhile_stops (p : Located → Bool) (lines : List Located) :
    ∃ rest, lines = lines.takeWhile p ++ rest ∧ lines.drop (lines.takeWhile p).length = rest ∧
      ∀ next ∈ rest.head?, p next = false := by
  refine ⟨lines.dropWhile p, List.takeWhile_append_dropWhile.symm, ?_, ?_⟩
  · nth_rewrite 2 [← List.takeWhile_append_dropWhile (p := p) (l := lines)]
    exact List.drop_left
  · intro next mem
    have fails := List.head?_dropWhile_not p lines
    rw [Option.mem_def.mp mem] at fails
    exact fails

/-- A notice is the run of lines from its first one to the next blank line or numbered heading,
with the counters attached to it. -/
theorem notice_lines {index : Nat} (found : (linesOf block)[index]? = some line)
    (copyright : containsText "copyright".toList (normalizedText unicode line.text) = true)
    (heading : numberedHeading unicode line.text = false) :
    ∃ notice back, noticeLines unicode ((linesOf block).drop index) = line :: notice ∧
      linesOf block = (linesOf block).take index ++ (line :: notice ++
        attachedCounters unicode page
          ((linesOf block).drop (index + (line :: notice).length)) ++ back) ∧
      (∀ next ∈ (attachedCounters unicode page
          ((linesOf block).drop (index + (line :: notice).length)) ++ back).head?,
        blank next.text = true ∨ numberedHeading unicode next.text = true) ∧
      ∀ next ∈ back.head?,
        blank next.text = false ∧ isPageNumber unicode next.text page.pageNumber = false := by
  have inside : index < (linesOf block).length := (List.getElem?_eq_some_iff.mp found).1
  have here : (linesOf block)[index] = line := (List.getElem?_eq_some_iff.mp found).2
  have visible : blank line.text = false := by
    rw [Bool.eq_false_iff]
    intro empty
    rw [normalizedText_of_blank empty] at copyright
    revert copyright
    decide
  have opened : noticeLines unicode ((linesOf block).drop index) =
      line :: noticeLines unicode ((linesOf block).drop (index + 1)) := by
    rw [List.drop_eq_getElem_cons inside, here]
    exact List.takeWhile_cons_of_pos (by simp [visible, heading])
  obtain ⟨after, split, dropped, stops⟩ := takeWhile_stops
    (fun line => !blank line.text && !numberedHeading unicode line.text)
    ((linesOf block).drop index)
  obtain ⟨back, attached, -, ends⟩ := takeWhile_stops
    (fun line => blank line.text || isPageNumber unicode line.text page.pageNumber) after
  have after_eq : (linesOf block).drop (index + (line ::
      noticeLines unicode ((linesOf block).drop (index + 1))).length) = after := by
    rw [← opened, ← List.drop_drop]
    exact dropped
  have whole : attachedCounters unicode page after ++ back = after := attached.symm
  refine ⟨_, back, opened, ?_, ?_, ?_⟩
  · rw [after_eq, List.append_assoc, whole, ← opened]
    exact (List.take_append_drop index _).symm.trans (congrArg _ split)
  · rw [after_eq, whole]
    intro next mem
    rcases Bool.and_eq_false_iff.mp (stops next mem) with empty | numbered
    · exact .inl (by simpa using empty)
    · exact .inr (by simpa using numbered)
  · intro next mem
    simpa using ends next mem

theorem noticeCandidate_spec {index : Nat} (found : (linesOf block)[index]? = some line) :
    ∃ candidates,
      noticeCandidate unicode policy page block (linesOf block) index line = some candidates ∧
      ∀ candidate ∈ candidates, Origin unicode document policy page block candidate := by
  unfold noticeCandidate
  split
  next start =>
    obtain ⟨-, copyright, heading⟩ := start
    obtain ⟨notice, back, first, lines, stops, ends⟩ :=
      @notice_lines _ page _ _ _ found copyright heading
    obtain ⟨last, final⟩ : ∃ last, (line :: notice).getLast? = some last :=
      ⟨_, List.getLast?_eq_some_getLast (List.cons_ne_nil _ _)⟩
    have split : locatedLines block.text.toList = (linesOf block).take index ++
        (line :: notice ++ (attachedCounters unicode page
          ((linesOf block).drop (index + (line :: notice).length)) ++ back)) := by
      rw [← List.append_assoc (line :: notice)]
      exact lines
    simp only [first, final, Option.map_some, Option.getD_some, locatedLines_run split final,
      bind, Option.bind_some]
    split
    next accepted =>
      refine ⟨_, rfl, ?_⟩
      intro candidate mem
      obtain rfl := List.mem_singleton.mp mem
      have visible : ∀ other ∈ line :: notice,
          blank other.text = false ∧ numberedHeading unicode other.text = false := by
        intro other mem
        rw [← first] at mem
        simpa using List.mem_takeWhile_imp mem
      have counters : ∀ counter ∈ attachedCounters unicode page
          ((linesOf block).drop (index + (line :: notice).length)),
          blank counter.text = true ∨ isPageNumber unicode counter.text page.pageNumber = true := by
        intro counter mem
        have attached := List.mem_takeWhile_imp mem
        exact Bool.or_eq_true_iff.mp attached
      cases counted : (attachedCounters unicode page
          ((linesOf block).drop (index + (line :: notice).length))).getLast? with
      | none =>
          refine .notice lines ?_ copyright accepted visible stops counters ends
          rw [List.getLast?_append, counted]
          exact final
      | some counter =>
          refine .notice lines ?_ copyright accepted visible stops counters ends
          rw [List.getLast?_append, counted]
          rfl
    next => exact ⟨[], rfl, fun _ mem => absurd mem List.not_mem_nil⟩
  next => exact ⟨[], rfl, fun _ mem => absurd mem List.not_mem_nil⟩

theorem blockCandidates_spec {blockIndex : Nat}
    (content : page.content[blockIndex]? = some block) :
    ∃ candidates, blockCandidates unicode policy page block blockIndex = some candidates ∧
      ∀ candidate ∈ candidates, Origin unicode document policy page block candidate := by
  have each : ∀ entry ∈ (linesOf block).zipIdx, ∃ candidates,
      (noticeCandidate unicode policy page block (linesOf block) entry.2 entry.1).bind
        (fun notice => some ((if policy = .original then
          edgeCandidate unicode page block blockIndex (linesOf block) entry.2 entry.1
          else []) ++ notice)) = some candidates ∧
      ∀ candidate ∈ candidates, Origin unicode document policy page block candidate := by
    intro entry mem
    have found := List.mem_zipIdx_iff_getElem?.mp mem
    obtain ⟨notice, computed, origins⟩ :=
      @noticeCandidate_spec unicode document policy page block entry.1 entry.2 found
    rw [computed]
    refine ⟨_, rfl, ?_⟩
    intro candidate candidate_mem
    rcases List.mem_append.mp candidate_mem with edge | inside
    · split at edge
      next original => exact edge_origin original content found edge
      next => exact absurd edge List.not_mem_nil
    · exact origins candidate inside
  obtain ⟨perLine, computed⟩ := mapM_exists fun entry mem =>
    (each entry mem).imp fun _ both => both.1
  refine ⟨perLine.flatten, ?_, ?_⟩
  · exact Option.bind_eq_some_iff.mpr ⟨perLine, computed, rfl⟩
  · intro candidate mem
    obtain ⟨some_line, line_mem, inside⟩ := List.mem_flatten.mp mem
    obtain ⟨entry, entry_mem, produced⟩ := mapM_mem computed line_mem
    obtain ⟨candidates, again, origins⟩ := each entry entry_mem
    rw [again] at produced
    obtain rfl := Option.some.inj produced
    exact origins candidate inside

theorem pageCandidates_spec (unicode : Unicode) (document : NormalizedDocument)
    (policy : FurniturePolicy) (page : NormalizedPage) :
    ∃ candidates, pageCandidates unicode policy page = some candidates ∧
      ∀ candidate ∈ candidates, ∃ block ∈ page.content,
        Origin unicode document policy page block candidate := by
  have each : ∀ entry ∈ page.content.zipIdx, ∃ candidates,
      blockCandidates unicode policy page entry.1 entry.2 = some candidates ∧
      ∀ candidate ∈ candidates, Origin unicode document policy page entry.1 candidate :=
    fun entry mem => blockCandidates_spec (List.mem_zipIdx_iff_getElem?.mp mem)
  obtain ⟨perBlock, computed⟩ := mapM_exists fun entry mem =>
    (each entry mem).imp fun _ both => both.1
  refine ⟨perBlock.flatten, Option.bind_eq_some_iff.mpr ⟨perBlock, computed, rfl⟩, ?_⟩
  intro candidate mem
  obtain ⟨some_block, block_mem, inside⟩ := List.mem_flatten.mp mem
  obtain ⟨entry, entry_mem, produced⟩ := mapM_mem computed block_mem
  obtain ⟨candidates, again, origins⟩ := each entry entry_mem
  rw [again] at produced
  obtain rfl := Option.some.inj produced
  exact ⟨entry.1, List.mem_of_getElem? (List.mem_zipIdx_iff_getElem?.mp entry_mem),
    origins candidate inside⟩

theorem candidates_spec (unicode : Unicode) (document : NormalizedDocument)
    (policy : FurniturePolicy) :
    ∃ all, candidates unicode document policy = some all ∧
      ∀ candidate ∈ all, ∃ page ∈ document.pages, ∃ block ∈ page.content,
        Origin unicode document policy page block candidate := by
  obtain ⟨perPage, computed⟩ := @mapM_exists _ _ _ document.pages fun page _ =>
    (pageCandidates_spec unicode document policy page).imp fun _ both => both.1
  refine ⟨_, Option.bind_eq_some_iff.mpr ⟨perPage, computed, rfl⟩, ?_⟩
  intro candidate mem
  rcases List.mem_append.mp mem with metadata | inside
  · split at metadata
    next running => exact metadata_origin running metadata
    next => exact absurd metadata List.not_mem_nil
  · obtain ⟨some_page, page_mem, candidate_mem⟩ := List.mem_flatten.mp inside
    obtain ⟨page, document_mem, produced⟩ := mapM_mem computed page_mem
    obtain ⟨candidates, again, origins⟩ := pageCandidates_spec unicode document policy page
    rw [again] at produced
    obtain rfl := Option.some.inj produced
    exact ⟨page, document_mem, origins candidate candidate_mem⟩

end Lines

end Furniture

end DocumentSummarizer.Pipeline
