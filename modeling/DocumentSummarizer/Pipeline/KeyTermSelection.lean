import DocumentSummarizer.Pipeline.ContractExtraction
import DocumentSummarizer.Pipeline.WholeClauseCover

/-! # Selected sections

A key term selects whole sections.  One that is not yet selected starts behind
all that are, because a section is one run of clauses.
-/

namespace DocumentSummarizer.Pipeline

open Library Furniture

/-- A clause of the section is at an uncertain boundary. -/
def Doubtful (sources : List SourceClause) (root : Nat) : Prop :=
  ∃ members, sectionMembers sources root = some members ∧
    ∃ member ∈ members, ∃ source, sources[member]? = some source ∧
      source.boundaryUncertain = true

/-- The selection is a whole section without an uncertain boundary. -/
structure WholeSection (sources : List SourceClause) (clauses : List ExtractedContractClause)
    (root : Nat) (members : List Nat) (selection : ContractSectionSelection) : Prop where
  found : sectionMembers sources root = some members
  certain : ¬ Doubtful sources root
  rootId : clauses[root]?.map (·.clauseId) = some selection.rootClauseId
  ids : members.mapM (fun member => clauses[member]?.map (·.clauseId)) = some selection.clauseIds

/-- The selections are whole sections, apart from each other and in document order, and there
are none when a section that matches is uncertain. -/
structure FaithfulTerm (sources : List SourceClause) (clauses : List ExtractedContractClause)
    (term : ContractKeyTerm) : Prop where
  whole : ∀ selection ∈ term.selections, ∃ root members,
    WholeSection sources clauses root members selection
  ordered : (term.selections.flatMap (·.clauseIds)).Sublist (clauses.map (·.clauseId))
  withheld : (∃ (root : Nat) (source : SourceClause), sources[root]? = some source ∧
    matchesCategory term.category source = true ∧ Doubtful sources root) → term.selections = []

section Sections

variable {sources : List SourceClause} {clauses : List ExtractedContractClause}
  {category : ContractTermCategory} {root : Nat} {members : List Nat}

/-- A section as the run that it is. -/
structure IsRun (sources : List SourceClause) (root : Nat) (members : List Nat) : Prop where
  found : sectionMembers sources root = some members
  run : members = List.range' root members.length
  mem : ∀ i, i ∈ members ↔ i < sources.length ∧ Climbs (·.parent) sources i root

theorem section_run (nested : Nested (framesOf sources)) (inside : root < sources.length) :
    ∃ members, IsRun sources root members := by
  obtain ⟨members, found, run, mem⟩ := members_spec (preorder_of_nested nested) inside
  exact ⟨members, found, run, mem⟩

theorem IsRun.self (h : IsRun sources root members) (inside : root < sources.length) :
    root ∈ members :=
  (h.mem root).mpr ⟨inside, .refl⟩

/-- What is behind the root and not in its run is behind the whole run. -/
theorem IsRun.before (h : IsRun sources root members) {n : Nat} (behind : root ≤ n)
    (outside : n ∉ members) {i : Nat} (mem : i ∈ members) : i < n := by
  rw [h.run, List.mem_range'_1] at mem outside
  omega

theorem IsRun.ascending (h : IsRun sources root members) : members.Pairwise (· < ·) := by
  rw [h.run]
  exact List.pairwise_lt_range'

theorem IsRun.lower (h : IsRun sources root members) {i : Nat} (mem : i ∈ members) :
    root ≤ i := by
  rw [h.run, List.mem_range'_1] at mem
  exact mem.1

/-- The section of a member is part of the section. -/
theorem IsRun.certain (nested : Nested (framesOf sources)) (h : IsRun sources root members)
    (certain : ¬ Doubtful sources root) {n : Nat} (mem : n ∈ members) :
    ¬ Doubtful sources n := by
  rintro ⟨inner, found, member, inner_mem, source, stored, uncertain⟩
  obtain ⟨inside, way⟩ := (h.mem n).mp mem
  obtain ⟨nodes, run⟩ := section_run nested inside
  rw [run.found, Option.some.injEq] at found
  subst found
  obtain ⟨member_inside, climbs⟩ := (run.mem member).mp inner_mem
  exact certain ⟨members, h.found, member, (h.mem member).mpr ⟨member_inside, climbs.trans way⟩,
    source, stored, uncertain⟩

/-- What the loop of a category knows before the clause at `n`. -/
structure SelectingInvariant (sources : List SourceClause)
    (clauses : List ExtractedContractClause) (category : ContractTermCategory) (n : Nat)
    (state : Selecting) (picked : List (Nat × List Nat)) : Prop where
  runs : ∀ entry ∈ picked, entry.1 < n ∧ IsRun sources entry.1 entry.2
  selected : state.selected = picked.flatMap (·.2)
  ascending : (picked.flatMap (·.2)).Pairwise (· < ·)
  selections : List.Forall₂ (fun entry selection =>
    WholeSection sources clauses entry.1 entry.2 selection) picked state.selections
  doubts : ∀ i < n, ∀ source, sources[i]? = some source → matchesCategory category source = true →
    Doubtful sources i → state.uncertain = true

theorem SelectingInvariant.start : SelectingInvariant sources clauses category 0 ⟨[], [], false⟩ [] where
  runs := by simp
  selected := rfl
  ascending := .nil
  selections := .nil
  doubts := by
    intro i less
    omega

variable {n : Nat} {state : Selecting} {picked : List (Nat × List Nat)} {source : SourceClause}

theorem SelectingInvariant.skip (h : SelectingInvariant sources clauses category n state picked)
    {uncertain : Bool} (kept : state.uncertain = true → uncertain = true)
    (settled : ∀ source, sources[n]? = some source → matchesCategory category source = true →
      Doubtful sources n → uncertain = true) :
    SelectingInvariant sources clauses category (n + 1)
      { state with uncertain := uncertain } picked where
  runs := fun entry mem => ⟨Nat.lt_succ_of_lt (h.runs entry mem).1, (h.runs entry mem).2⟩
  selected := h.selected
  ascending := h.ascending
  selections := h.selections
  doubts := by
    intro i less source stored matched doubtful
    rcases Nat.lt_succ_iff_lt_or_eq.mp less with earlier | rfl
    · exact kept (h.doubts i earlier source stored matched doubtful)
    · exact settled source stored matched doubtful

/-- A section that no selected one contains starts behind all of them. -/
theorem SelectingInvariant.push (h : SelectingInvariant sources clauses category n state picked)
    (fresh : n ∉ state.selected) (run : IsRun sources n members)
    (certain : ¬ Doubtful sources n) {selection : ContractSectionSelection}
    (whole : WholeSection sources clauses n members selection) :
    SelectingInvariant sources clauses category (n + 1)
      ⟨state.selected ++ members, state.selections ++ [selection], state.uncertain⟩
      (picked ++ [(n, members)]) where
  runs := by
    intro entry mem
    rcases List.mem_append.mp mem with old | new
    · exact ⟨Nat.lt_succ_of_lt (h.runs entry old).1, (h.runs entry old).2⟩
    · rw [List.mem_singleton.mp new]
      exact ⟨Nat.lt_succ_self n, run⟩
  selected := by simp [h.selected]
  ascending := by
    rw [List.flatMap_append]
    have last : ([(n, members)] : List (Nat × List Nat)).flatMap (·.2) = members := by simp
    rw [last, List.pairwise_append]
    refine ⟨h.ascending, run.ascending, ?_⟩
    intro i earlier j later
    have lower := run.lower later
    rw [List.mem_flatMap] at earlier
    obtain ⟨entry, entry_mem, mem⟩ := earlier
    obtain ⟨before, outer⟩ := h.runs entry entry_mem
    have outside : n ∉ entry.2 := by
      intro inside
      apply fresh
      rw [h.selected]
      exact List.mem_flatMap.mpr ⟨entry, entry_mem, inside⟩
    have := outer.before before.le outside mem
    omega
  selections := List.rel_append h.selections (.cons whole .nil)
  doubts := by
    intro i less source stored matched doubtful
    rcases Nat.lt_succ_iff_lt_or_eq.mp less with earlier | rfl
    · exact h.doubts i earlier source stored matched doubtful
    · exact absurd doubtful certain

theorem selectSection_spec (nested : Nested (framesOf sources))
    (long : clauses.length = sources.length)
    (h : SelectingInvariant sources clauses category n state picked)
    (stored : sources[n]? = some source) :
    ∃ next more, selectSection sources clauses category state source n = some next ∧
      SelectingInvariant sources clauses category (n + 1) next more := by
  have inside : n < sources.length := (List.getElem?_eq_some_iff.mp stored).1
  obtain ⟨members, run⟩ := section_run nested inside
  unfold selectSection
  split
  next passed =>
    refine ⟨state, picked, rfl, h.skip id ?_⟩
    intro source' stored' matched doubtful
    rw [stored] at stored'
    obtain rfl := Option.some.inj stored'
    rcases passed with selected | unmatched
    · -- a clause of a selected section has no uncertain section of its own
      exfalso
      rw [h.selected, List.mem_flatMap] at selected
      obtain ⟨entry, entry_mem, mem⟩ := selected
      obtain ⟨-, outer⟩ := h.runs entry entry_mem
      obtain ⟨selection, -, whole⟩ := forall₂_left_exists h.selections entry_mem
      exact outer.certain nested whole.certain mem doubtful
    · rw [matched] at unmatched
      cases unmatched
  next fresh =>
    obtain ⟨outside, matched⟩ := not_or.mp fresh
    obtain ⟨flags, flagged⟩ := @mapM_exists _ _
      (fun member => sources[member]?.map (·.boundaryUncertain)) members (by
        intro member mem
        rw [List.getElem?_eq_getElem ((run.mem member).mp mem).1]
        exact ⟨_, rfl⟩)
    obtain ⟨sound, complete⟩ := mapM_zip flagged
    have doubtful_iff : flags.any id = true ↔ Doubtful sources n := by
      rw [List.any_eq_true]
      constructor
      · rintro ⟨flag, flag_mem, raised⟩
        obtain ⟨member, mem, found⟩ := mapM_mem flagged flag_mem
        obtain ⟨source', stored', same⟩ := Option.map_eq_some_iff.mp found
        exact ⟨members, run.found, member, mem, source', stored', same.trans raised⟩
      · rintro ⟨members', found, member, mem, source', stored', raised⟩
        rw [run.found, Option.some.injEq] at found
        subst found
        obtain ⟨flag, pair_mem⟩ := complete member mem
        have hit := (sound _ pair_mem).2
        simp only [stored', Option.map_some, Option.some.injEq] at hit
        exact ⟨flag, (List.of_mem_zip pair_mem).2, hit.symm.trans raised⟩
    simp only [run.found, flagged, bind, Option.bind_some]
    split
    next doubtful =>
      exact ⟨_, picked, rfl, h.skip (fun _ => rfl) fun _ _ _ _ => rfl⟩
    next sure =>
      have certain : ¬ Doubtful sources n := fun doubtful => sure (doubtful_iff.mpr doubtful)
      split
      next => exact ⟨state, picked, rfl, h.skip id fun _ _ _ doubtful => absurd doubtful certain⟩
      next =>
        have record : ∀ i < sources.length, ∃ clause, clauses[i]? = some clause :=
          fun i less => ⟨_, List.getElem?_eq_getElem (long ▸ less)⟩
        obtain ⟨root, root_found⟩ := record n inside
        obtain ⟨ids, identified⟩ := @mapM_exists _ _
          (fun member => clauses[member]?.map (·.clauseId)) members (by
            intro member mem
            obtain ⟨clause, found⟩ := record member ((run.mem member).mp mem).1
            exact ⟨clause.clauseId, by rw [found, Option.map_some]⟩)
        simp only [root_found, identified, Option.bind_some]
        refine ⟨_, _, rfl, h.push outside run certain ⟨run.found, certain, ?_, identified⟩⟩
        rw [root_found, Option.map_some]

theorem selectSections_spec (nested : Nested (framesOf sources))
    (long : clauses.length = sources.length)
    (h : SelectingInvariant sources clauses category n state picked) (inside : n ≤ sources.length) :
    ∃ final more,
      selectSections sources clauses category state (sources.zipIdx.drop n) = some final ∧
      SelectingInvariant sources clauses category sources.length final more := by
  induction left : sources.length - n generalizing n state picked with
  | zero =>
      obtain rfl : n = sources.length := by omega
      refine ⟨state, picked, ?_, h⟩
      rw [List.drop_eq_nil_of_le (by simp)]
      rfl
  | succ left ih =>
      have less : n < sources.length := by omega
      have stored := List.getElem?_eq_getElem less
      have shape : sources.zipIdx.drop n = (sources[n], n) :: sources.zipIdx.drop (n + 1) := by
        rw [List.drop_eq_getElem_cons (by simpa using less), List.getElem_zipIdx, Nat.zero_add]
      obtain ⟨next, more, stepped, invariant⟩ := selectSection_spec nested long h stored
      obtain ⟨final, last, ended, finished⟩ := ih invariant less (by omega)
      refine ⟨final, last, ?_, finished⟩
      rw [shape, selectSections, stepped, Option.bind_some, ended]

/-! ## The opening -/

theorem opening_alone (nested : Nested (framesOf sources)) (stored : sources[0]? = some source)
    (opening : source.opening = true) (run : IsRun sources 0 members) : members = [0] := by
  have inside : 0 < sources.length := (List.getElem?_eq_some_iff.mp stored).1
  have frame : ∀ (i : Nat) (clause : SourceClause), sources[i]? = some clause →
      (framesOf sources)[i]? = some clause.frame := by
    intro i clause found
    rw [framesOf, List.getElem?_map, found, Option.map_some]
  have alone : ∀ i ∈ members, i = 0 := by
    intro i mem
    apply ((run.mem i).mp mem).2.eq_of_childless
    exact fun n clause found =>
      nested.opening_childless (frame 0 source stored) opening (frame n clause found)
  have first := run.self inside
  have long : members.length ≤ 1 := by
    by_contra more
    have second : 1 ∈ members := by
      rw [run.run, List.mem_range'_1]
      omega
    exact absurd (alone 1 second) (by decide)
  rw [run.run] at first ⊢
  have : members.length = 1 := by
    rw [List.mem_range'_1] at first
    omega
  rw [this]
  rfl

/-- The clauses before the first that is no opening are at most one. -/
theorem openings_front (nested : Nested (framesOf sources)) {first : Nat}
    (found : sources.findIdx? (!·.opening) = some first) :
    first = 0 ∨ first = 1 ∧ ∃ source, sources[0]? = some source ∧ source.opening = true := by
  obtain ⟨inside, -, before⟩ := List.findIdx?_eq_some_iff_getElem.mp found
  have opening : ∀ i (less : i < first), (sources.get ⟨i, by omega⟩).opening = true := by
    intro i less
    simpa using before i less
  have only : ∀ i < first, i = 0 := by
    intro i less
    refine (nested.opened i (sources.get ⟨i, by omega⟩).frame ?_ (opening i less)).1
    rw [framesOf, List.getElem?_map, List.getElem?_eq_getElem (by omega), Option.map_some]
    rfl
  rcases Nat.eq_zero_or_pos first with zero | positive
  · exact .inl zero
  · right
    have := only (first - 1) (by omega)
    exact ⟨by omega, _, List.getElem?_eq_getElem (by omega), opening 0 positive⟩

variable {unicode : Unicode} {document : NormalizedDocument}

theorem openingBetween_spec (nested : Nested (framesOf sources))
    (long : clauses.length = sources.length)
    (texts : ∀ source ∈ sources, ∃ text, clauseText document source = some text) :
    ∃ selection doubtful,
      openingBetween unicode document sources clauses = some (selection, doubtful) ∧
      ∀ chosen, selection = some chosen → WholeSection sources clauses 0 [0] chosen := by
  have none_chosen : ∀ doubtful : Bool, ∃ selection doubtful',
      some ((none : Option ContractSectionSelection), doubtful) = some (selection, doubtful') ∧
      ∀ chosen, selection = some chosen → WholeSection sources clauses 0 [0] chosen :=
    fun doubtful => ⟨none, doubtful, rfl, nofun⟩
  unfold openingBetween
  split
  next => exact none_chosen false
  next first found =>
    split
    next => exact none_chosen false
    next =>
      split
      next => exact none_chosen true
      next sure =>
        obtain ⟨read, read_all⟩ := @mapM_exists _ _ (clauseText document)
          (sources.take first) fun source mem => texts source (List.mem_of_mem_take mem)
        simp only [read_all, bind, Option.bind_some]
        split
        next mentions =>
          rcases openings_front nested found with rfl | ⟨rfl, source, stored, opening⟩
          · exact none_chosen false
          · have inside : 0 < sources.length := (List.getElem?_eq_some_iff.mp stored).1
            obtain ⟨members, run⟩ := section_run nested inside
            obtain rfl := opening_alone nested stored opening run
            have recorded : 0 < clauses.length := by omega
            have record : clauses[0]? = some clauses[0] := List.getElem?_eq_getElem recorded
            have front : clauses.take 1 = [clauses[0]] := by
              cases clauses with
              | nil => simp at long; omega
              | cons clause rest => rfl
            have sources_front : sources.take 1 = [source] := by
              cases sources with
              | nil => cases stored
              | cons other rest =>
                  obtain rfl := Option.some.inj stored
                  rfl
            simp only [front, List.map_cons, List.map_nil]
            refine ⟨_, _, rfl, ?_⟩
            intro chosen same
            obtain rfl := Option.some.inj same
            refine ⟨run.found, ?_, by rw [record]; rfl, ?_⟩
            · rintro ⟨members', found', member, mem, other, stored', raised⟩
              rw [run.found, Option.some.injEq] at found'
              subst found'
              obtain rfl := List.mem_singleton.mp mem
              rw [stored] at stored'
              obtain rfl := Option.some.inj stored'
              rw [sources_front] at sure
              simp [raised] at sure
            · rw [mapM_some_iff]
              exact .cons (by rw [record]; rfl) .nil
        next => exact none_chosen false

/-! ## The term -/

theorem idAt_eq (clauses : List ExtractedContractClause) :
    (fun member : Nat => clauses[member]?.map (·.clauseId)) =
      fun member : Nat => (clauses.map (·.clauseId))[member]? := by
  funext member
  rw [List.getElem?_map]

/-- A key term can always be selected, and faithfully. -/
theorem keyTerm_spec (nested : Nested (framesOf sources))
    (long : clauses.length = sources.length)
    (texts : ∀ source ∈ sources, ∃ text, clauseText document source = some text)
    (category : ContractTermCategory) :
    ∃ term, keyTerm unicode document sources clauses category = some term ∧
      term.category = category ∧ FaithfulTerm sources clauses term := by
  obtain ⟨final, picked, ended, invariant⟩ := @selectSections_spec sources clauses category 0
    ⟨[], [], false⟩ [] nested long .start (Nat.zero_le _)
  rw [List.drop_zero] at ended
  have whole : ∀ selection ∈ final.selections, ∃ root members,
      WholeSection sources clauses root members selection := by
    intro selection mem
    obtain ⟨entry, -, section_⟩ := forall₂_right_exists invariant.selections mem
    exact ⟨entry.1, entry.2, section_⟩
  have ordered : (final.selections.flatMap (·.clauseIds)).Sublist
      (clauses.map (·.clauseId)) := by
    have ids := @mapM_flatMap _ _ _ _ _ Prod.snd ContractSectionSelection.clauseIds _ _
      (invariant.selections.imp fun _ _ section_ => section_.ids)
    rw [idAt_eq] at ids
    exact sublist_of_places invariant.ascending (fun _ _ => Nat.zero_le _) ids
  have withheld : (∃ (root : Nat) (source : SourceClause), sources[root]? = some source ∧
      matchesCategory category source = true ∧ Doubtful sources root) →
      final.uncertain = true := by
    rintro ⟨root, source, stored, matched, doubtful⟩
    exact invariant.doubts root (List.getElem?_eq_some_iff.mp stored).1 source stored matched
      doubtful
  unfold keyTerm
  simp only [ended, bind, Option.bind_some]
  split
  next opening =>
    obtain ⟨selection, doubtful, found, chosen⟩ :=
      @openingBetween_spec sources clauses unicode document nested long texts
    simp only [found, Option.bind_some, pure]
    refine ⟨_, rfl, rfl, ?_⟩
    constructor
    · intro other mem
      simp only at mem
      split at mem
      · exact absurd mem List.not_mem_nil
      · exact ⟨0, [0], chosen other (Option.mem_toList.mp mem)⟩
    · simp only
      split
      · exact List.nil_sublist _
      · cases selection with
        | none => exact List.nil_sublist _
        | some other =>
            have ids := (chosen other rfl).ids
            rw [idAt_eq] at ids
            have := sublist_of_places (n := 0) (List.pairwise_singleton _ _)
              (fun _ _ => Nat.zero_le _) ids
            simpa using this
    · intro uncertain
      simp only
      rw [withheld uncertain, Bool.true_or, if_pos rfl]
  next =>
    refine ⟨_, rfl, rfl, ?_⟩
    constructor
    · intro other mem
      simp only at mem
      split at mem
      · exact absurd mem List.not_mem_nil
      · exact whole other mem
    · simp only
      split
      · exact List.nil_sublist _
      · exact ordered
    · intro uncertain
      simp only
      rw [withheld uncertain, if_pos rfl]

end Sections

end DocumentSummarizer.Pipeline
