import DocumentSummarizer.Pipeline.ClauseNesting

/-! # The pass over the lines of a contract

One turn of the loop takes the first one or two lines, adds them to the cover
and keeps the clauses nested.  It never fails, so the whole pass ends with all
lines covered.
-/

namespace DocumentSummarizer.Pipeline

open Library Furniture

/-- What a clause says of its source. -/
def SourceClause.source (clause : SourceClause) : Frame × List SourceFragment :=
  (clause.frame, clause.fragments)

def fragmentsOf (clauses : List SourceClause) : List SourceFragment :=
  clauses.flatMap (·.fragments)

def framesOf (clauses : List SourceClause) : List Frame :=
  clauses.map (·.frame)

/-- What holds after the given lines. -/
structure ScanInvariant (document : NormalizedDocument) (scan : ClauseScan)
    (consumed : List SourceLine) : Prop where
  cover : Covers document (fragmentsOf scan.clauses) consumed
  filled : ∀ clause ∈ scan.clauses, clause.fragments ≠ []
  nested : Nested (framesOf scan.clauses)
  chain : OpenChain (framesOf scan.clauses) scan.stack

section Invariant

variable {document : NormalizedDocument} {scan other : ClauseScan}
  {consumed more : List SourceLine} {line : SourceLine} {read : ReadLine}
  {clauses : List SourceClause}

theorem framesOf_source (clauses : List SourceClause) :
    framesOf clauses = (clauses.map (·.source)).map (·.1) := by
  rw [List.map_map]
  rfl

theorem fragmentsOf_source (clauses : List SourceClause) :
    fragmentsOf clauses = (clauses.map (·.source)).flatMap (·.2) := by
  rw [List.flatMap_map]
  rfl

theorem ScanInvariant.start (document : NormalizedDocument) :
    ScanInvariant document ⟨[], [], [], none⟩ [] where
  cover := .nil
  filled := by simp
  nested := .nil
  chain := .nil _

theorem source_markUncertain (clauses : List SourceClause) (index : Nat) :
    (markUncertain clauses index).map (·.source) = clauses.map (·.source) := by
  apply List.ext_getElem?
  intro i
  rw [markUncertain, List.getElem?_map, List.getElem?_map, List.getElem?_modify]
  cases clauses[i]? with
  | none => rfl
  | some clause =>
      by_cases here : index = i
      · simp only [here, if_true, Option.map_some]
        rfl
      · simp [here]

theorem ScanInvariant.congr (h : ScanInvariant document scan consumed)
    (same : other.clauses.map (·.source) = scan.clauses.map (·.source))
    (stack : other.stack = scan.stack) : ScanInvariant document other consumed where
  cover := by
    rw [fragmentsOf_source, same, ← fragmentsOf_source]
    exact h.cover
  filled := by
    intro clause mem
    have inside := List.mem_map_of_mem (f := SourceClause.source) mem
    rw [same] at inside
    obtain ⟨old, old_mem, equal⟩ := List.mem_map.mp inside
    have := congrArg Prod.snd equal
    rw [show clause.fragments = old.fragments from this.symm]
    exact h.filled old old_mem
  nested := by
    rw [framesOf_source, same, ← framesOf_source]
    exact h.nested
  chain := by
    rw [framesOf_source, same, ← framesOf_source, stack]
    exact h.chain

theorem ScanInvariant.arrive (h : ScanInvariant document scan consumed) (line : SourceLine)
    (read : ReadLine) : ScanInvariant document (scan.arrive line read).1 consumed := by
  refine h.congr ?_ rfl
  have marked : ∀ (doubtful : Prop) [Decidable doubtful], (if doubtful then
      markUncertain scan.clauses (scan.clauses.length - 1) else scan.clauses).map (·.source) =
        scan.clauses.map (·.source) := by
    intro doubtful _
    split
    · exact source_markUncertain _ _
    · rfl
  exact marked _

/-- The innermost open clause governs a number. -/
def HeadGoverns (scan : ClauseScan) (number : List (List Char)) : Prop :=
  ∀ p, scan.stack.head? = some p →
    ∃ above, (framesOf scan.clauses)[p]? = some above ∧ Governs above number

theorem popAncestors_spec (number : List (List Char)) (marked : Bool) {stack : List Nat}
    {uncertain : Bool} (h : ScanInvariant document { scan with stack := stack } consumed) :
    ∃ popped doubtful,
      ClauseScan.popAncestors number marked stack scan uncertain = some (popped, doubtful) ∧
      ScanInvariant document popped consumed ∧ HeadGoverns popped number := by
  induction stack generalizing scan uncertain with
  | nil => exact ⟨_, _, rfl, h, fun p found => by cases found⟩
  | cons last under ih =>
      obtain ⟨frame, stored, -⟩ := h.chain.linked last under [] rfl
      rw [framesOf, List.getElem?_map, Option.map_eq_some_iff] at stored
      obtain ⟨clause, stored, rfl⟩ := stored
      have shorter : ScanInvariant document { scan with stack := under } consumed :=
        ⟨h.cover, h.filled, h.nested, h.chain.pop⟩
      simp only [ClauseScan.popAncestors, stored, Option.bind_some]
      split
      next governs =>
        refine ⟨_, _, rfl, h, ?_⟩
        intro p found
        obtain rfl := Option.some.inj found
        refine ⟨clause.frame, ?_, governs.imp id ?_⟩
        · rw [framesOf, List.getElem?_map, stored, Option.map_some]
        · exact (Option.any_eq_true _ _).mp
      next =>
        split
        · apply ih
          exact shorter.congr (source_markUncertain _ _) rfl
        · exact ih shorter

theorem framesOf_append (front back : List SourceClause) :
    framesOf (front ++ back) = framesOf front ++ framesOf back :=
  List.map_append

theorem fragmentsOf_append (front back : List SourceClause) :
    fragmentsOf (front ++ back) = fragmentsOf front ++ fragmentsOf back :=
  List.flatMap_append

theorem ScanInvariant.openClause (h : ScanInvariant document scan consumed)
    {clause : SourceClause} {number : List (List Char)} (marked : Bool)
    (below : clause.parent = scan.stack.head?)
    (numbered : scan.stack.head? ≠ none → clause.number = some number)
    (governs : HeadGoverns scan number) (shut : clause.opening = false)
    (nonempty : clause.fragments ≠ [])
    (cover : Covers document (fragmentsOf scan.clauses ++ clause.fragments) more) :
    ScanInvariant document (scan.openClause clause marked) more := by
  have frame_below : clause.frame.parent = scan.stack.head? := below
  have frame_shut : clause.frame.opening = false := shut
  obtain ⟨nested, chain⟩ := h.nested.push h.chain frame_below (by
    intro p found
    obtain ⟨above, stored, governed⟩ := governs p found
    exact ⟨above, number, stored, numbered (by rw [found]; nofun), governed⟩)
    (fun opening => by rw [frame_shut] at opening; cases opening)
  constructor
  · rw [ClauseScan.openClause, fragmentsOf_append]
    simpa [fragmentsOf] using cover
  · intro other mem
    rcases List.mem_append.mp mem with old | new
    · exact h.filled other old
    · rw [List.mem_singleton.mp new]
      exact nonempty
  · rw [ClauseScan.openClause, framesOf_append]
    exact nested
  · rw [ClauseScan.openClause, framesOf_append]
    have length : (framesOf scan.clauses).length = scan.clauses.length := List.length_map _
    rw [length] at chain
    exact chain

/-- The lines of a leading title. -/
def leadingLines (leading : Option (SourceLine × List Char)) : List SourceLine :=
  (leading.map (·.1)).toList

theorem openTitle_spec (h : ScanInvariant document scan consumed) {number : List (List Char)}
    (governs : HeadGoverns scan number) (marked uncertain : Bool)
    {leading : Option (SourceLine × List Char)}
    (placed : ∀ line ∈ leadingLines leading, line.Placed document) :
    ∃ titled left taken, scan.openTitle number marked uncertain leading = (titled, left) ∧
      taken ++ leadingLines left = leadingLines leading ∧
      ScanInvariant document titled (consumed ++ taken) ∧ HeadGoverns titled number := by
  cases leading with
  | none => exact ⟨scan, none, [], rfl, rfl, by simpa using h, governs⟩
  | some title =>
      obtain ⟨line, heading⟩ := title
      have here : line.Placed document := placed line List.mem_cons_self
      simp only [ClauseScan.openTitle]
      split
      next alone =>
        obtain ⟨long, absent⟩ := alone
        refine ⟨_, _, [line], rfl, rfl, ?_, ?_⟩
        · apply h.openClause marked rfl (fun _ => rfl) _ rfl (by nofun) (h.cover.start here)
          intro p found
          obtain ⟨above, stored, governed⟩ := governs p found
          refine ⟨above, stored, governed.imp id ?_⟩
          rintro ⟨outer, own, strict⟩
          refine ⟨outer, own, strictChild_of_ne_dropLast strict ?_⟩
          rintro rfl
          -- the innermost clause would have the parent number already
          rw [framesOf, List.getElem?_map, Option.map_eq_some_iff] at stored
          obtain ⟨clause, stored, rfl⟩ := stored
          have : (scan.stack.any fun index => scan.clauses[index]?.any fun clause =>
              clause.number = some number.dropLast) = true := by
            rw [List.any_eq_true]
            refine ⟨p, List.mem_of_head? found, ?_⟩
            rw [stored, Option.any_some]
            exact decide_eq_true own
          rw [this] at absent
          cases absent
        · intro p found
          obtain rfl := Option.some.inj found
          refine ⟨(ClauseScan.titleClause line heading number.dropLast scan.stack.head? uncertain).frame,
            ?_, .inr ⟨number.dropLast, rfl, strictChild_dropLast long⟩⟩
          rw [ClauseScan.openClause, framesOf_append,
            List.getElem?_append_right (by simp [framesOf])]
          simp [framesOf]
      next => exact ⟨scan, some (line, heading), [], rfl, rfl, by simpa using h, governs⟩

theorem appendSource_spec {clause : SourceClause} {front : List SourceFragment}
    (cover : Covers document (front ++ clause.fragments) consumed)
    (placed : line.Placed document) :
    ∃ appended, appendSource document clause line.fragment = some appended ∧
      appended.frame = clause.frame ∧ appended.fragments ≠ [] ∧
      Covers document (front ++ appended.fragments) (consumed ++ [line]) := by
  obtain ⟨fragments, found, nonempty, covered⟩ := appendFragment_covers cover placed
  refine ⟨{ clause with fragments := fragments }, ?_, rfl, nonempty, covered⟩
  rw [appendSource, found, Option.map_some]

theorem openNumber_spec (h : ScanInvariant document scan consumed) {number : List (List Char)}
    (governs : HeadGoverns scan number) (rest : List Char) (marked uncertain : Bool)
    {leading : Option (SourceLine × List Char)}
    (front : ∀ line ∈ leadingLines leading, line.Placed document)
    (placed : line.Placed document) :
    ∃ opened, scan.openNumber document line number rest marked uncertain leading = some opened ∧
      ScanInvariant document opened (consumed ++ (leadingLines leading ++ [line])) := by
  have cover : Covers document
      (fragmentsOf scan.clauses ++ (leading.map (·.1.fragment)).toList)
      (consumed ++ leadingLines leading) := by
    cases leading with
    | none => simpa [leadingLines] using h.cover
    | some title => exact h.cover.start (front title.1 List.mem_cons_self)
  obtain ⟨clause, appended, frame, nonempty, covered⟩ := @appendSource_spec document _ line
    { headings := (leading.map (·.2)).toList ++
        if (contractTitle rest).1 = [] then [] else [(contractTitle rest).1]
      fragments := (leading.map (·.1.fragment)).toList
      parent := scan.stack.head?
      number := some number
      article := none
      opening := false
      headingOnly := !(contractTitle rest).2 && leading.isNone
      boundaryUncertain := uncertain } (fragmentsOf scan.clauses) cover placed
  refine ⟨scan.openClause clause marked, ?_, ?_⟩
  · simp only [ClauseScan.openNumber, appended, bind, Option.bind_some, pure]
  · rw [← List.append_assoc]
    exact h.openClause marked (congrArg Frame.parent frame)
      (fun _ => congrArg Frame.number frame) governs (congrArg Frame.opening frame) nonempty covered

theorem openNumbered_spec (h : ScanInvariant document scan consumed)
    (numbered : List (List Char) × List Char) (uncertain : Bool)
    {leading : Option (SourceLine × List Char)}
    (front : ∀ line ∈ leadingLines leading, line.Placed document)
    (placed : line.Placed document) :
    ∃ opened, scan.openNumbered document line read uncertain numbered leading = some opened ∧
      ScanInvariant document opened (consumed ++ (leadingLines leading ++ [line])) := by
  obtain ⟨popped, doubtful, closed, invariant, governs⟩ :=
    @popAncestors_spec document scan consumed numbered.1 read.sectionMarked scan.stack uncertain h
  obtain ⟨titled, left, taken, split, whole, invariant, governs⟩ :=
    openTitle_spec invariant governs read.sectionMarked doubtful front
  have taken_front : ∀ line ∈ leadingLines left, line.Placed document :=
    fun line mem => front line (whole ▸ List.mem_append_right _ mem)
  obtain ⟨opened, found, invariant⟩ := openNumber_spec invariant governs
    numbered.2 read.sectionMarked doubtful taken_front placed
  refine ⟨opened, ?_, ?_⟩
  · simp only [ClauseScan.openNumbered, closed, bind, Option.bind_some, split, found]
  · rw [← whole]
    simpa only [List.append_assoc] using invariant

theorem addText_spec (h : ScanInvariant document scan consumed) (uncertain : Bool)
    (placed : line.Placed document) :
    ∃ added, scan.addText document line uncertain = some added ∧
      ScanInvariant document added (consumed ++ [line]) := by
  rcases List.eq_nil_or_concat scan.clauses with empty | ⟨before, clause, whole⟩
  · simp only [ClauseScan.addText, empty, List.getLast?_nil]
    refine ⟨_, rfl, ?_⟩
    have closed : scan.stack = [] := by
      cases shape : scan.stack with
      | nil => rfl
      | cons index under =>
          have := (h.chain.reached index (by rw [shape]; rfl)).1
          simp [framesOf, empty] at this
    have cover := h.cover
    rw [empty] at cover
    constructor
    · simpa [fragmentsOf] using cover.start placed
    · simp
    · exact (Nested.nil.push (.nil []) rfl nofun fun _ => ⟨rfl, rfl, rfl⟩).1
    · rw [closed]
      exact .nil _
  · rw [List.concat_eq_append] at whole
    have cover := h.cover
    rw [whole, fragmentsOf_append] at cover
    obtain ⟨appended, found, frame, nonempty, covered⟩ := @appendSource_spec document _ line
      { clause with
        headingOnly := false
        boundaryUncertain := clause.boundaryUncertain || uncertain } (fragmentsOf before)
      (by simpa [fragmentsOf] using cover) placed
    have frames : framesOf (before ++ [appended]) = framesOf scan.clauses := by
      rw [whole, framesOf_append, framesOf_append]
      exact congrArg (framesOf before ++ [·]) frame
    refine ⟨{ scan with clauses := before ++ [appended] }, ?_, ?_⟩
    · simp only [ClauseScan.addText, whole, List.getLast?_concat, found, bind, Option.bind_some,
        pure, List.dropLast_concat]
    · constructor
      · rw [fragmentsOf_append]
        simpa [fragmentsOf] using covered
      · intro other mem
        rcases List.mem_append.mp mem with old | new
        · exact h.filled other (whole ▸ List.mem_append_left _ old)
        · rw [List.mem_singleton.mp new]
          exact nonempty
      · exact frames ▸ h.nested
      · exact frames ▸ h.chain

theorem openArticle_spec (h : ScanInvariant document scan consumed) (uncertain : Bool)
    (article : Nat) (title : List Char) {rest : List (SourceLine × ReadLine)}
    (second : read.articleLines = 2 → rest ≠ [])
    (placed : line.Placed document) (later : ∀ pair ∈ rest, pair.1.Placed document) :
    ∃ opened taken left,
      scan.openArticle document line read uncertain article title rest = some (opened, left) ∧
      rest = taken ++ left ∧
      ScanInvariant document opened (consumed ++ line :: taken.map (·.1)) := by
  have closed : ScanInvariant document { scan with stack := [] } consumed :=
    ⟨h.cover, h.filled, h.nested, .nil _⟩
  have cover : Covers document (fragmentsOf scan.clauses ++ [line.fragment])
      (consumed ++ [line]) := h.cover.start placed
  simp only [ClauseScan.openArticle]
  by_cases double : read.articleLines = 2
  · cases rest with
    | nil => exact absurd rfl (second double)
    | cons next rest =>
        obtain ⟨next, nextRead⟩ := next
        obtain ⟨clause, appended, frame, nonempty, covered⟩ := @appendSource_spec document _ next
          (ClauseScan.articleClause line article title uncertain) (fragmentsOf scan.clauses) cover
          (later _ List.mem_cons_self)
        simp only [if_pos double, appended, Option.map_some]
        refine ⟨_, [(next, nextRead)], rest, rfl, rfl, ?_⟩
        rw [List.append_assoc] at covered
        exact @ScanInvariant.openClause _ _ _ _ closed _ [] false (congrArg Frame.parent frame)
          (fun open_ => absurd rfl open_) nofun (congrArg Frame.opening frame) nonempty covered
  · simp only [if_neg double]
    refine ⟨_, [], rest, rfl, rfl, ?_⟩
    exact @ScanInvariant.openClause _ _ _ _ closed _ [] false rfl (fun open_ => absurd rfl open_) nofun rfl nofun
      cover

/-- One turn takes the first line, or two, into the clauses. -/
theorem step_spec (h : ScanInvariant document scan consumed)
    {rest : List (SourceLine × ReadLine)} (second : read.articleLines = 2 → rest ≠ [])
    (placed : line.Placed document) (later : ∀ pair ∈ rest, pair.1.Placed document) :
    ∃ next taken left, scan.step document line read rest = some (next, left) ∧
      rest = taken ++ left ∧
      ScanInvariant document next (consumed ++ line :: taken.map (·.1)) := by
  have arrived := h.arrive line read
  simp only [ClauseScan.step]
  cases heading : read.article.or read.roman with
  | some article => exact openArticle_spec arrived _ article.1 article.2 second placed later
  | none =>
      cases titled : ClauseScan.leadingLine line read rest with
      | some leading =>
          obtain ⟨title, ⟨next, nextRead⟩, numbered⟩ := leading
          simp only [ClauseScan.leadingLine] at titled
          split at titled
          next =>
            obtain ⟨⟨next', nextRead'⟩, first, mapped⟩ := Option.bind_eq_some_iff.mp titled
            obtain ⟨numbered', -, same⟩ := Option.map_eq_some_iff.mp mapped
            simp only [Prod.mk.injEq] at same
            obtain ⟨rfl, ⟨rfl, rfl⟩, rfl⟩ := same
            cases rest with
            | nil => cases first
            | cons pair rest =>
                obtain rfl := Option.some.inj first
                obtain ⟨opened, found, invariant⟩ := @openNumbered_spec document
                  (scan.arrive line read).1 consumed next' nextRead' arrived numbered'
                  (scan.arrive line read).2
                  (some (line, line.text.rdropWhile fun c => c == '.' || c == ':'))
                  (by
                    intro other mem
                    rw [List.mem_singleton.mp mem]
                    exact placed)
                  (later _ List.mem_cons_self)
                refine ⟨opened, [(next', nextRead')], rest, ?_, rfl, invariant⟩
                simp only [found, Option.map_some, List.tail_cons]
          next => cases titled
      | none =>
          cases number : read.number with
          | some numbered =>
              obtain ⟨opened, found, invariant⟩ := @openNumbered_spec document
                (scan.arrive line read).1 consumed line read arrived numbered
                (scan.arrive line read).2 none nofun placed
              refine ⟨opened, [], rest, ?_, rfl, invariant⟩
              simp only [found, Option.map_some]
          | none =>
              obtain ⟨added, found, invariant⟩ :=
                addText_spec arrived (scan.arrive line read).2 placed
              refine ⟨added, [], rest, ?_, rfl, invariant⟩
              simp only [found, Option.map_some]

theorem run_spec {fuel : Nat} {lines : List (SourceLine × ReadLine)}
    (h : ScanInvariant document scan consumed) (enough : lines.length ≤ fuel)
    (single : ∀ pair, lines.getLast? = some pair → pair.2.articleLines ≠ 2)
    (placed : ∀ pair ∈ lines, pair.1.Placed document) :
    ∃ final, ClauseScan.run document fuel scan lines = some final ∧
      ScanInvariant document final (consumed ++ lines.map (·.1)) := by
  induction fuel generalizing scan consumed lines with
  | zero =>
      obtain rfl := List.length_eq_zero_iff.mp (Nat.le_zero.mp enough)
      exact ⟨scan, rfl, by simpa using h⟩
  | succ fuel ih =>
      cases lines with
      | nil => exact ⟨scan, rfl, by simpa using h⟩
      | cons pair rest =>
          obtain ⟨line, read⟩ := pair
          obtain ⟨next, taken, left, stepped, rfl, invariant⟩ := @step_spec _ _ _ _ read h _
            (by
              rintro double rfl
              exact single _ rfl double)
            (placed _ List.mem_cons_self) fun pair mem => placed pair (List.mem_cons_of_mem _ mem)
          obtain ⟨final, ended, finished⟩ := ih invariant
            (by
              simp only [List.length_cons, List.length_append] at enough
              omega)
            (by
              intro pair last
              apply single pair
              rw [List.getLast?_cons, List.getLast?_append, last]
              rfl)
            fun pair mem => placed pair (List.mem_cons_of_mem _ (List.mem_append_right _ mem))
          refine ⟨final, ?_, ?_⟩
          · simp only [ClauseScan.run, stepped, Option.bind_some, ended]
          · simpa using finished

end Invariant

end DocumentSummarizer.Pipeline
