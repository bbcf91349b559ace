import DocumentSummarizer.Pipeline.ClauseScanning

/-! # The clauses cover the contract

Whatever the numbering, no retained line is lost or doubled, and every section
is one run of clauses.
-/

namespace DocumentSummarizer.Pipeline

open Library Furniture

/-! ## Reading keeps the lines -/

section Reading

variable {unicode : Unicode} {pairs : List (SourceLine × ReadLine)}

/-- The last line has no second line to take. -/
def LastSingle (pairs : List (SourceLine × ReadLine)) : Prop :=
  ∀ pair, pairs.getLast? = some pair → pair.2.articleLines ≠ 2

theorem LastSingle.cons {first : SourceLine × ReadLine} (h : LastSingle pairs)
    (nonempty : pairs ≠ []) : LastSingle (first :: pairs) := by
  cases pairs with
  | nil => exact absurd rfl nonempty
  | cons second rest =>
      intro pair last
      rw [List.getLast?_cons_cons] at last
      exact h pair last

theorem splitArticles_spec {current : SourceLine × ReadLine}
    (single : current.2.articleLines = 1) (rest : ∀ pair ∈ pairs, pair.2.articleLines = 1) :
    (splitArticles unicode current pairs).map (·.1) = current.1 :: pairs.map (·.1) ∧
      LastSingle (splitArticles unicode current pairs) := by
  induction pairs generalizing current with
  | nil =>
      refine ⟨rfl, ?_⟩
      intro pair last
      obtain rfl : current = pair := Option.some.inj last
      rw [single]
      decide
  | cons next later ih =>
      obtain ⟨line, read⟩ := current
      obtain ⟨nextLine, nextRead⟩ := next
      have tail := fun pair mem => rest pair (List.mem_cons_of_mem _ mem)
      have go : ∀ (first : SourceLine × ReadLine) (kind : LineKind) (ends : Bool),
          first.1 = line →
          ((first :: splitArticles unicode
            (nextLine, { nextRead with kind := kind, endsUnit := ends }) later).map (·.1) =
              line :: nextLine :: later.map (·.1)) ∧
            LastSingle (first :: splitArticles unicode
              (nextLine, { nextRead with kind := kind, endsUnit := ends }) later) := by
        intro first kind ends same
        obtain ⟨lines, last⟩ := @ih (nextLine, { nextRead with kind := kind, endsUnit := ends })
          (rest (nextLine, nextRead) List.mem_cons_self) tail
        refine ⟨by rw [List.map_cons, lines, same], last.cons ?_⟩
        intro empty
        rw [empty] at lines
        cases lines
      unfold splitArticles
      split
      · split
        · exact go _ _ _ rfl
        · exact go (line, read) nextRead.kind nextRead.endsUnit rfl
      · exact go (line, read) nextRead.kind nextRead.endsUnit rfl

theorem resolveArticles_spec (single : ∀ pair ∈ pairs, pair.2.articleLines = 1) :
    (resolveArticles unicode pairs).map (·.1) = pairs.map (·.1) ∧
      LastSingle (resolveArticles unicode pairs) := by
  cases pairs with
  | nil => exact ⟨rfl, fun pair last => by cases last⟩
  | cons first rest =>
      exact splitArticles_spec (single _ List.mem_cons_self)
        fun pair mem => single pair (List.mem_cons_of_mem _ mem)

/-- What later passes keep of a line. -/
def lineShape (pair : SourceLine × ReadLine) : SourceLine × Nat :=
  (pair.1, pair.2.articleLines)

theorem admitRomans_shape (last : Option Nat) (pairs : List (SourceLine × ReadLine)) :
    (admitRomans last pairs).map lineShape = pairs.map lineShape := by
  induction pairs generalizing last with
  | nil => rfl
  | cons pair rest ih =>
      unfold admitRomans
      split
      · simp only [List.map_cons, ih]
        rfl
      · simp only [List.map_cons, ih]

theorem admitHeadings_shape (starts inOpening : Bool) (pairs : List (SourceLine × ReadLine)) :
    (admitHeadings unicode starts inOpening pairs).map lineShape = pairs.map lineShape := by
  induction pairs generalizing starts inOpening with
  | nil => rfl
  | cons pair rest ih =>
      have go : ∀ (read : ReadLine) (starts inOpening : Bool),
          read.articleLines = pair.2.articleLines →
          ((pair.1, read) :: admitHeadings unicode starts inOpening rest).map lineShape =
            (pair :: rest).map lineShape := by
        intro read starts inOpening same
        rw [List.map_cons, List.map_cons, ih, lineShape, same]
        rfl
      obtain ⟨line, read⟩ := pair
      unfold admitHeadings
      dsimp only
      repeat' split
      all_goals exact go _ _ _ rfl

theorem map_line_of_shape {other : List (SourceLine × ReadLine)}
    (same : other.map lineShape = pairs.map lineShape) :
    other.map (·.1) = pairs.map (·.1) := by
  have := congrArg (List.map Prod.fst) same
  rwa [List.map_map, List.map_map] at this

theorem LastSingle.congr {other : List (SourceLine × ReadLine)} (h : LastSingle pairs)
    (same : other.map lineShape = pairs.map lineShape) : LastSingle other := by
  intro pair last
  have shapes := congrArg List.getLast? same
  rw [List.getLast?_map, List.getLast?_map, last, Option.map_some] at shapes
  obtain ⟨old, found, equal⟩ := Option.map_eq_some_iff.mp shapes.symm
  have lines : old.2.articleLines = pair.2.articleLines := congrArg Prod.snd equal
  exact lines ▸ h old found

theorem readLines_spec (grammar : HeadingGrammar) (lines : List SourceLine) :
    (readLines unicode grammar lines).map (·.1) = lines ∧
      LastSingle (readLines unicode grammar lines) := by
  obtain ⟨same, single⟩ := @resolveArticles_spec unicode
    (lines.map fun line => (line, ReadLine.read unicode line.text grammar)) (by
      intro pair mem
      obtain ⟨line, -, rfl⟩ := List.mem_map.mp mem
      rfl)
  have shape : (readLines unicode grammar lines).map lineShape = (resolveArticles unicode
      (lines.map fun line => (line, ReadLine.read unicode line.text grammar))).map lineShape := by
    rw [readLines, admitHeadings_shape, admitRomans_shape]
  refine ⟨?_, single.congr shape⟩
  rw [map_line_of_shape shape, same, List.map_map]
  exact List.map_id _

end Reading

/-! ## The cover -/

/-- The clauses are cut from the retained lines without loss, and nest. -/
structure LosslessCover (document : NormalizedDocument) (furniture : Furniture)
    (clauses : List SourceClause) : Prop where
  /-- A visible line of a block is kept, or no byte of it is retained. -/
  retained : ∀ block ∈ document.blocks, ∃ ranges,
    furniture.retainedRanges block.blockId = some ranges ∧
    ∀ line ∈ linesOf block, blank line.text = true ∨ line ∈ keptLines furniture block ∨
      Removed ranges line
  /-- The fragments show every kept line once, in the order of the document. -/
  cover : Covers document (fragmentsOf clauses) (document.blocks.flatMap fun block =>
    (keptLines furniture block).map (trimmedLine block))
  filled : ∀ clause ∈ clauses, clause.fragments ≠ []
  /-- A parent comes first, and is an article or has the front of the number. -/
  parents : ∀ (i : Nat) (clause : SourceClause) (p : Nat), clauses[i]? = some clause →
    clause.parent = some p → p < i ∧ ∃ above, clauses[p]? = some above ∧
      (above.article.isSome = true ∨ ∃ outer number, above.number = some outer ∧
        clause.number = some number ∧ outer <+: number ∧ outer ≠ number)
  /-- A section is the clause and all its descendants, in one run. -/
  sections : ∀ root < clauses.length, ∃ nodes, sectionMembers clauses root = some nodes ∧
    nodes = List.range' root nodes.length ∧
    ∀ i, i ∈ nodes ↔ i < clauses.length ∧ Climbs (·.parent) clauses i root

section Cover

variable {document : NormalizedDocument} {clauses : List SourceClause}

theorem preorder_of_nested (nested : Nested (framesOf clauses)) :
    InPreorder (·.parent) clauses :=
  nested.preorder.of_map

theorem parents_of_nested (nested : Nested (framesOf clauses)) {i p : Nat}
    {clause : SourceClause} (stored : clauses[i]? = some clause)
    (under : clause.parent = some p) :
    p < i ∧ ∃ above, clauses[p]? = some above ∧
      (above.article.isSome = true ∨ ∃ outer number, above.number = some outer ∧
        clause.number = some number ∧ outer <+: number ∧ outer ≠ number) := by
  have framed : (framesOf clauses)[i]? = some clause.frame := by
    rw [framesOf, List.getElem?_map, stored, Option.map_some]
  refine ⟨(preorder_of_nested nested i clause p stored under).1, ?_⟩
  obtain ⟨frame, number, found, own, governs⟩ := nested.governed i clause.frame p framed under
  rw [framesOf, List.getElem?_map, Option.map_eq_some_iff] at found
  obtain ⟨above, found, rfl⟩ := found
  refine ⟨above, found, governs.imp id ?_⟩
  rintro ⟨outer, outer_own, strict⟩
  obtain ⟨shorter, starts⟩ := strictChild_iff.mp strict
  refine ⟨outer, number, outer_own, own, starts, ?_⟩
  rintro rfl
  exact Nat.lt_irrefl _ shorter

/-- The lines of a document that its furniture leaves. -/
def keptSources (furniture : Furniture) (document : NormalizedDocument) : List SourceLine :=
  document.blocks.flatMap fun block => (keptLines furniture block).map (trimmedLine block)

theorem contractSources_spec (unicode : Unicode) (identified : document.Identified)
    (policy : FurniturePolicy) (grammar : HeadingGrammar) :
    ∃ furniture scan, forPolicy unicode document policy = some furniture ∧
      contractSources unicode document policy grammar = some scan.clauses ∧
      ScanInvariant document scan (keptSources furniture document) ∧
      ∀ block ∈ document.blocks, ∃ ranges,
        furniture.retainedRanges block.blockId = some ranges ∧
        ∀ line ∈ linesOf block, blank line.text = true ∨ line ∈ keptLines furniture block ∨
          Removed ranges line := by
  obtain ⟨furniture, found, lines, retained⟩ :=
    @retainedLines_spec unicode document policy identified
  obtain ⟨same, single⟩ := @readLines_spec unicode grammar (keptSources furniture document)
  obtain ⟨final, ended, invariant⟩ := run_spec (ScanInvariant.start document) (by
      rw [← List.length_map (·.1), same]) single (by
      intro pair mem
      have kept : pair.1 ∈ keptSources furniture document := by
        rw [← same]
        exact List.mem_map_of_mem mem
      exact placed_of_kept identified kept)
  rw [same] at invariant
  refine ⟨furniture, final, found, ?_, invariant, retained⟩
  change retainedLines furniture document = some (keptSources furniture document) at lines
  simp only [contractSources, found, lines, ended, bind, Option.bind_some, pure]

/-- Cutting a contract into clauses always succeeds, loses nothing and nests. -/
theorem whole_clause_cover (unicode : Unicode) (identified : document.Identified)
    (policy : FurniturePolicy) (grammar : HeadingGrammar) :
    ∃ furniture clauses, forPolicy unicode document policy = some furniture ∧
      contractSources unicode document policy grammar = some clauses ∧
      LosslessCover document furniture clauses := by
  obtain ⟨furniture, scan, found, cut, invariant, retained⟩ :=
    contractSources_spec unicode identified policy grammar
  refine ⟨furniture, scan.clauses, found, cut, ?_⟩
  exact {
    retained := retained
    cover := invariant.cover
    filled := invariant.filled
    parents := fun i clause p stored under => parents_of_nested invariant.nested stored under
    sections := fun root inside => members_spec (preorder_of_nested invariant.nested) inside }

end Cover

/-- An article of two sections, the second with a wrapped line. -/
def contractDocument : NormalizedDocument :=
  { noticeDocument with pages := [noticePage 1
      "ARTICLE I - FEES\n1.1 Due date. Fees are due\nin May.\n1.2 Late fees. Two percent."] }

example : (contractSources .ascii contractDocument .runningMetadata .sectionAndSplitArticle).map
    (·.map fun clause => (clause.fragments.map fun f => (f.start, f.finish), clause.parent)) =
    some [([(0, 16)], none), ([(17, 51)], some 0), ([(52, 79)], some 0)] := by
  decide +kernel

theorem whole_clause_cover_of_contract :
    ∃ furniture clauses, forPolicy .ascii contractDocument .original = some furniture ∧
      contractSources .ascii contractDocument .original .original = some clauses ∧
      LosslessCover contractDocument furniture clauses :=
  whole_clause_cover .ascii ⟨by decide, by decide⟩ .original .original

end DocumentSummarizer.Pipeline
