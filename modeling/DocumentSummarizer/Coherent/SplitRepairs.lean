import DocumentSummarizer.Coherent.SplitMatching

/-! # Split repairs are recognized

A claim to keep is looked for behind the one before, which finds every one of them as far
to the left as it can be; what is then left must fall into the groups of the split units.
-/

namespace DocumentSummarizer.Coherent

open DocumentSummarizer.Library DocumentSummarizer.Pipeline

/-! ## The leftmost occurrence -/

/-- An occurrence that starts at a position or behind it. -/
structure OccursFrom (candidate preserved : List CitedClaim) (next : Nat) (positions : List Nat) :
    Prop where
  occurs : OccursAt candidate preserved positions
  behind : ∀ position ∈ positions, next ≤ position

section Leftmost

variable {candidate : List CitedClaim} {required : CitedClaim} {later : List CitedClaim}
  {next position : Nat} {positions : List Nat}

/-- A claim is the one to keep. -/
def KeptAt (candidate : List CitedClaim) (required : CitedClaim) (position : Nat) : Prop :=
  ∃ claim, candidate[position]? = some claim ∧ claim.text = required.text ∧
    claim.evidenceIds = required.evidenceIds

theorem sameClaim_iff {claim : CitedClaim} :
    sameClaim required claim = true ↔
      claim.text = required.text ∧ claim.evidenceIds = required.evidenceIds := by
  simp [sameClaim]

theorem found_next {relative : Nat}
    (found : (candidate.drop next).findIdx? (sameClaim required) = some relative) :
    KeptAt candidate required (next + relative) ∧
      ∀ position, next ≤ position → KeptAt candidate required position →
        next + relative ≤ position := by
  obtain ⟨inside, same, first⟩ := List.findIdx?_eq_some_iff_getElem.mp found
  rw [List.getElem_drop] at same
  constructor
  · exact ⟨_, List.getElem?_eq_getElem _, sameClaim_iff.mp same⟩
  · rintro position behind ⟨claim, held, kept⟩
    by_contra before
    have missed := first (position - next) (by omega)
    simp only [List.getElem_drop, Nat.add_sub_cancel' behind] at missed
    rw [(List.getElem?_eq_some_iff.mp held).2, sameClaim_iff.mpr kept] at missed
    simp at missed

theorem missed_next (missed : (candidate.drop next).findIdx? (sameClaim required) = none)
    (behind : next ≤ position) : ¬ KeptAt candidate required position := by
  rintro ⟨claim, held, kept⟩
  have mem : claim ∈ candidate.drop next := by
    apply List.mem_of_getElem? (i := position - next)
    rw [List.getElem?_drop, Nat.add_sub_cancel' behind, held]
  have other := List.findIdx?_eq_none_iff.mp missed claim mem
  rw [sameClaim_iff.mpr kept] at other
  simp at other

theorem OccursFrom.cons (behind : next ≤ position) (kept : KeptAt candidate required position)
    (rest : OccursFrom candidate later (position + 1) positions) :
    OccursFrom candidate (required :: later) next (position :: positions) := by
  refine ⟨⟨.cons (fun other mem => rest.behind other mem) rest.occurs.ascending,
    .cons kept rest.occurs.same⟩, ?_⟩
  intro other mem
  cases mem with
  | head => exact behind
  | tail _ further =>
      have := rest.behind other further
      omega

theorem OccursFrom.uncons (h : OccursFrom candidate (required :: later) next positions) :
    ∃ position rest, positions = position :: rest ∧ next ≤ position ∧
      KeptAt candidate required position ∧ OccursFrom candidate later (position + 1) rest := by
  obtain ⟨⟨ascending, same⟩, behind⟩ := h
  cases same with
  | @cons position _ rest _ kept further =>
      have ordered := List.pairwise_cons.mp ascending
      exact ⟨position, rest, rfl, behind _ List.mem_cons_self, kept,
        ⟨⟨ordered.2, further⟩, fun other mem => ordered.1 other mem⟩⟩

theorem OccursFrom.mono {earlier : Nat} (h : OccursFrom candidate later next positions)
    (before : earlier ≤ next) : OccursFrom candidate later earlier positions :=
  ⟨h.occurs, fun other mem => Nat.le_trans before (h.behind other mem)⟩

end Leftmost

theorem markPreserved_eq_none {candidate preserved : List CitedClaim} {consumed : List Bool}
    {next : Nat} (missed : markPreserved candidate preserved consumed next = none)
    (positions : List Nat) : ¬ OccursFrom candidate preserved next positions := by
  induction preserved generalizing consumed next positions with
  | nil => simp [markPreserved] at missed
  | cons required later ih =>
      intro occurs
      obtain ⟨position, rest, rfl, behind, kept, further⟩ := occurs.uncons
      rw [markPreserved] at missed
      cases found : (candidate.drop next).findIdx? (sameClaim required) with
      | none => exact missed_next found behind kept
      | some relative =>
          rw [found] at missed
          have first := (found_next found).2 position behind kept
          exact ih missed rest (further.mono (by omega))

theorem markPreserved_eq_some {candidate preserved : List CitedClaim} {consumed marked : List Bool}
    {next : Nat} (sized : consumed.length = candidate.length)
    (found : markPreserved candidate preserved consumed next = some marked) :
    marked.length = candidate.length ∧ ∃ positions,
      OccursFrom candidate preserved next positions ∧
      (∀ others, OccursFrom candidate preserved next others →
        List.Forall₂ (· ≤ ·) positions others) ∧
      flagged marked = flagged consumed ∪ positions.toFinset := by
  induction preserved generalizing consumed next with
  | nil =>
      cases found
      refine ⟨sized, [], ⟨⟨.nil, .nil⟩, by simp⟩, ?_, by simp⟩
      intro others occurs
      obtain ⟨⟨_, same⟩, _⟩ := occurs
      cases same
      exact .nil
  | cons required later ih =>
      rw [markPreserved] at found
      cases here : (candidate.drop next).findIdx? (sameClaim required) with
      | none => simp [here] at found
      | some relative =>
          rw [here] at found
          obtain ⟨kept, first⟩ := found_next here
          have within : next + relative < candidate.length := by
            obtain ⟨claim, held, _⟩ := kept
            exact (List.getElem?_eq_some_iff.mp held).1
          obtain ⟨length, positions, occurs, leftmost, same⟩ :=
            ih (by simpa using sized) found
          refine ⟨length, (next + relative) :: positions, occurs.cons (by omega) kept, ?_, ?_⟩
          · intro others occurs'
            obtain ⟨position, rest, rfl, behind, kept', further⟩ := occurs'.uncons
            have before := first position behind kept'
            exact .cons before (leftmost rest (further.mono (by omega)))
          · rw [same]
            ext position
            simp only [Finset.mem_union, mem_flagged, List.mem_toFinset, List.mem_cons,
              List.getElem?_set, sized]
            by_cases marks : next + relative = position
            · subst marks
              simp [within]
            · simp [marks, Ne.symm marks]

theorem flagged_replicate (n : Nat) : flagged (List.replicate n false) = ∅ := by
  ext position
  simp [List.getElem?_replicate]

theorem preserved_eq_some {candidate preserved : List CitedClaim} {marked : List Bool}
    (found : preservedClaimPositions candidate preserved = some marked) :
    marked.length = candidate.length ∧
      ∃ kept, LeftmostAt candidate preserved kept ∧ flagged marked = kept.toFinset := by
  obtain ⟨length, kept, occurs, leftmost, same⟩ :=
    markPreserved_eq_some (by simp) found
  refine ⟨length, kept, ⟨occurs.occurs, fun others occurs' => ?_⟩, ?_⟩
  · exact leftmost others ⟨occurs', fun _ _ => Nat.zero_le _⟩
  · rw [same, flagged_replicate, Finset.empty_union]

theorem preserved_eq_none {candidate preserved : List CitedClaim}
    (missed : preservedClaimPositions candidate preserved = none) (positions : List Nat) :
    ¬ OccursAt candidate preserved positions :=
  fun occurs => markPreserved_eq_none missed positions ⟨occurs, fun _ _ => Nat.zero_le _⟩

theorem LeftmostAt.unique {candidate preserved : List CitedClaim} {kept others : List Nat}
    (h : LeftmostAt candidate preserved kept) (h' : LeftmostAt candidate preserved others) :
    kept = others := by
  have below := h.first others h'.occurs
  have above := h'.first kept h.occurs
  clear h h'
  induction below with
  | nil => rfl
  | cons le _ ih =>
      cases above with
      | cons ge further => rw [Nat.le_antisymm le ge, ih further]

theorem exists_leftmost_iff {candidate preserved : List CitedClaim} :
    (∃ kept, LeftmostAt candidate preserved kept) ↔
      ∃ positions, OccursAt candidate preserved positions := by
  constructor
  · rintro ⟨kept, leftmost⟩
    exact ⟨kept, leftmost.occurs⟩
  · rintro ⟨positions, occurs⟩
    cases found : preservedClaimPositions candidate preserved with
    | none => exact absurd occurs (preserved_eq_none found positions)
    | some marked =>
        obtain ⟨_, kept, leftmost, _⟩ := preserved_eq_some found
        exact ⟨kept, leftmost⟩

/-! ## The whole answer -/

theorem all_flagged_iff {consumed : List Bool} :
    (consumed.all fun isConsumed => isConsumed) = true ↔
      flagged consumed = Finset.range consumed.length := by
  rw [List.all_eq_true]
  constructor
  · intro all
    ext position
    simp only [mem_flagged, Finset.mem_range]
    constructor
    · intro held
      exact (List.getElem?_eq_some_iff.mp held).1
    · intro within
      rw [List.getElem?_eq_getElem within, all _ (List.getElem_mem within)]
  · intro same flag mem
    obtain ⟨position, within, rfl⟩ := List.mem_iff_getElem.mp mem
    have held : position ∈ flagged consumed := by
      rw [same]
      exact Finset.mem_range.mpr within
    rw [mem_flagged, List.getElem?_eq_getElem within] at held
    exact Option.some.inj held

section Whole

variable {candidate preserved : List CitedClaim} {mixed : List (List String)}

theorem satisfiesSplitRepair_iff (few : candidate.length ≤ maxSummaryClaims)
    (cited : ∀ claim ∈ candidate, claim.evidenceIds ≠ []) :
    satisfiesSplitRepair candidate preserved mixed = true ↔
      ∃ kept groups, LeftmostAt candidate preserved kept ∧
        SiblingGroups candidate kept.toFinset mixed groups ∧
        kept.toFinset ∪ groupedClaims groups = Finset.range candidate.length := by
  rw [satisfiesSplitRepair]
  cases found : preservedClaimPositions candidate preserved with
  | none =>
      simp only [Bool.false_eq_true, false_iff]
      rintro ⟨kept, groups, leftmost, _⟩
      exact preserved_eq_none found kept leftmost.occurs
  | some marked =>
      obtain ⟨sized, kept, leftmost, same⟩ := preserved_eq_some found
      have solvable := @consume_isSome_iff _ _ mixed few sized
      rw [same] at solvable
      cases done : consumeRequiredSiblingClaims candidate marked mixed with
      | none =>
          simp only [done, Option.isSome_none, Bool.false_eq_true, false_iff] at solvable ⊢
          rintro ⟨kept', groups, leftmost', split, _⟩
          cases leftmost.unique leftmost'
          exact solvable ⟨groups, split⟩
      | some consumed =>
          obtain ⟨sized', groups, split, consumedAt⟩ := consume_marks few sized done
          rw [same] at split consumedAt
          simp only [done, all_flagged_iff, sized', consumedAt]
          constructor
          · intro all
            exact ⟨kept, groups, leftmost, split, all⟩
          · rintro ⟨kept', groups', leftmost', split', all⟩
            cases leftmost.unique leftmost'
            exact split'.covers cited split all

end Whole

/-- The search consumes the claims of groups exactly when there are such groups, whatever
states it remembers; and a split repair is recognized exactly when, behind the leftmost
occurrence of the claims to keep, the claims that are left fall into such groups. -/
theorem split_repair_matches {candidate preserved : List CitedClaim} {consumed : List Bool}
    {required mixed : List (List String)} (few : candidate.length ≤ maxSummaryClaims)
    (cited : ∀ claim ∈ candidate, claim.evidenceIds ≠ [])
    (sized : consumed.length = candidate.length) :
    ((consumeRequiredSiblingClaims candidate consumed required).isSome = true ↔
      ∃ groups, SiblingGroups candidate (flagged consumed) required groups) ∧
    (∀ marked, consumeRequiredSiblingClaims candidate consumed required = some marked →
      marked.length = candidate.length ∧
        ∃ groups, SiblingGroups candidate (flagged consumed) required groups ∧
          flagged marked = flagged consumed ∪ groupedClaims groups) ∧
    (satisfiesSplitRepair candidate preserved mixed = true ↔
      ∃ kept groups, LeftmostAt candidate preserved kept ∧
        SiblingGroups candidate kept.toFinset mixed groups ∧
        kept.toFinset ∪ groupedClaims groups = Finset.range candidate.length) ∧
    ((∃ kept, LeftmostAt candidate preserved kept) ↔
      ∃ positions, OccursAt candidate preserved positions) ∧
    ∀ taken groups others, SiblingGroups candidate taken mixed groups →
      SiblingGroups candidate taken mixed others →
      taken ∪ groupedClaims groups = Finset.range candidate.length →
      taken ∪ groupedClaims others = Finset.range candidate.length := by
  refine ⟨consume_isSome_iff few sized, fun marked done => consume_marks few sized done,
    satisfiesSplitRepair_iff few cited, exists_leftmost_iff, ?_⟩
  intro taken groups others split split'
  exact split.covers cited split'

/-- A claim that is kept and the halves of one that was split. -/
def splitClaims : List CitedClaim :=
  [⟨"claim-1", "Kept.", ["e1"]⟩, ⟨"claim-2", "First half.", ["e2"]⟩,
    ⟨"claim-3", "Second half.", ["e3"]⟩]

theorem split_repair_matches_two_claims :
    satisfiesSplitRepair splitClaims (splitClaims.take 1) [["e3", "e2"]] = true ∧
      ∃ kept groups, LeftmostAt splitClaims (splitClaims.take 1) kept ∧
        SiblingGroups splitClaims kept.toFinset [["e3", "e2"]] groups ∧
        kept.toFinset ∪ groupedClaims groups = Finset.range 3 := by
  have repaired :
      satisfiesSplitRepair splitClaims (splitClaims.take 1) [["e3", "e2"]] = true := by
    decide +kernel
  obtain ⟨-, -, matched, -⟩ := @split_repair_matches splitClaims (splitClaims.take 1)
    [true, false, false] [["e3", "e2"]] [["e3", "e2"]] (by decide) (by decide) rfl
  exact ⟨repaired, matched.mp repaired⟩

end DocumentSummarizer.Coherent
