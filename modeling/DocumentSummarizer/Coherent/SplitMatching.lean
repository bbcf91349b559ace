import DocumentSummarizer.Coherent.SplitRepair

/-! # Split matching

The search over masks finds groups whenever there are any: what it remembers are states
from which no groups can be found, and the walk over the submasks leaves none out.
-/

namespace DocumentSummarizer.Coherent

open DocumentSummarizer.Library DocumentSummarizer.Pipeline

/-! ## One subset -/

theorem takeEvidence_eq_some {remaining ids left : List String} :
    takeEvidence remaining ids = some left →
      (remaining : Multiset String) = (ids : Multiset String) + (left : Multiset String) := by
  induction ids generalizing remaining with
  | nil =>
      intro taken
      cases taken
      simp
  | cons evidenceId later ih =>
      simp only [takeEvidence]
      split
      · next held =>
          intro taken
          have rest := ih taken
          rw [← Multiset.coe_erase] at rest
          rw [← Multiset.cons_erase (Multiset.mem_coe.mpr held), rest, ← Multiset.cons_coe,
            Multiset.cons_add]
      · simp

theorem takeEvidence_eq_none {remaining ids : List String} :
    takeEvidence remaining ids = none →
      ¬ (ids : Multiset String) ≤ (remaining : Multiset String) := by
  induction ids generalizing remaining with
  | nil => simp [takeEvidence]
  | cons evidenceId later ih =>
      simp only [takeEvidence]
      split
      · next held =>
          intro taken contained
          apply ih taken
          rw [← Multiset.cons_coe, ← Multiset.cons_erase (Multiset.mem_coe.mpr held)] at contained
          rw [← Multiset.coe_erase]
          exact (Multiset.cons_le_cons_iff _).mp contained
      · next missing =>
          intro _ contained
          rw [← Multiset.cons_coe] at contained
          exact missing (Multiset.mem_coe.mp
            (Multiset.mem_of_le contained (Multiset.mem_cons_self _ _)))

@[simp] theorem evidenceAt_cons_zero (claim : CitedClaim) (later : List CitedClaim) :
    evidenceAt (claim :: later) 0 = claim.evidenceIds := rfl

@[simp] theorem evidenceAt_cons_succ (claim : CitedClaim) (later : List CitedClaim) (j : Nat) :
    evidenceAt (claim :: later) (j + 1) = evidenceAt later j := rfl

theorem evidenceAt_outside {candidate : List CitedClaim} {position : Nat}
    (outside : candidate.length ≤ position) : evidenceAt candidate position = 0 := by
  simp [evidenceAt, List.getElem?_eq_none outside]

/-- The evidence of the claims a mask selects, the first of them standing at `index`. -/
def selectedEvidence (subset : ClaimMask) (claims : List CitedClaim) (index : Nat) :
    Multiset String :=
  ∑ j ∈ Finset.range claims.length,
    if subset.getLsbD (index + j) = true then evidenceAt claims j else 0

theorem selectedEvidence_cons (subset : ClaimMask) (claim : CitedClaim) (later : List CitedClaim)
    (index : Nat) :
    selectedEvidence subset (claim :: later) index =
      (if subset.getLsbD index = true then (claim.evidenceIds : Multiset String) else 0) +
        selectedEvidence subset later (index + 1) := by
  simp only [selectedEvidence, List.length_cons, Finset.sum_range_succ', evidenceAt_cons_succ,
    evidenceAt_cons_zero, Nat.add_zero]
  rw [add_comm]
  simp only [Nat.add_assoc, Nat.add_comm 1]

theorem matchSubset_iff (subset : ClaimMask) (claims : List CitedClaim) (index : Nat)
    (remaining : List String) :
    matchSubset subset claims index remaining = true ↔
      selectedEvidence subset claims index = (remaining : Multiset String) := by
  induction claims generalizing index remaining with
  | nil =>
      simp only [matchSubset, List.isEmpty_iff, selectedEvidence, List.length_nil,
        Finset.range_zero, Finset.sum_empty]
      constructor
      · rintro rfl
        rfl
      · intro none
        exact Multiset.coe_eq_zero _ |>.mp none.symm
  | cons claim later ih =>
      rw [matchSubset, selectedEvidence_cons]
      by_cases selected : subset.getLsbD index = true
      · rw [if_neg (by simp [and_bit_eq_zero, selected]), if_pos selected]
        cases taken : takeEvidence remaining claim.evidenceIds with
        | none =>
            have missing := takeEvidence_eq_none taken
            simp only [Bool.false_eq_true, false_iff]
            intro exactly
            exact missing (exactly ▸ Multiset.le_add_right _ _)
        | some left =>
            rw [takeEvidence_eq_some taken]
            simp only [ih, add_right_inj]
      · rw [if_pos (and_bit_eq_zero.mpr (by simpa using selected)), if_neg selected, ih, zero_add]

theorem selectedEvidence_eq (subset : ClaimMask) (candidate : List CitedClaim) :
    selectedEvidence subset candidate 0 = combinedEvidence candidate (positionsOf subset) := by
  simp only [selectedEvidence, Nat.zero_add, ← mem_positionsOf]
  rw [Finset.sum_ite_mem, combinedEvidence]
  apply Finset.sum_subset Finset.inter_subset_right
  intro position selected outside
  apply evidenceAt_outside
  simpa [mem_positionsOf.mp selected] using outside

theorem subsetExactlyMatchesSibling_iff (candidate : List CitedClaim) (subset : ClaimMask)
    (requiredEvidence : List String) :
    subsetExactlyMatchesSibling candidate subset requiredEvidence = true ↔
      combinedEvidence candidate (positionsOf subset) = (requiredEvidence : Multiset String) := by
  rw [subsetExactlyMatchesSibling, matchSubset_iff, selectedEvidence_eq]

/-! ## Settling one unit after the other -/

/-- Units settled one after the other, each with a group of claims that are still free. -/
inductive Assigned (candidate : List CitedClaim) :
    List (List String) → Finset Nat → Finset Nat → Prop
  | done (taken : Finset Nat) : Assigned candidate [] taken taken
  | group {evidence : List String} {later : List (List String)} {taken final group : Finset Nat}
      (nonempty : group.Nonempty) (free : group ⊆ Finset.range candidate.length \ taken)
      (exactly : combinedEvidence candidate group = (evidence : Multiset String))
      (rest : Assigned candidate later (taken ∪ group) final) :
      Assigned candidate (evidence :: later) taken final

/-- The claims of all groups. -/
def groupedClaims (groups : List (Finset Nat)) : Finset Nat := groups.foldr (· ∪ ·) ∅

@[simp] theorem groupedClaims_nil : groupedClaims [] = ∅ := rfl

@[simp] theorem groupedClaims_cons (group : Finset Nat) (later : List (Finset Nat)) :
    groupedClaims (group :: later) = group ∪ groupedClaims later := rfl

theorem mem_groupedClaims {groups : List (Finset Nat)} {position : Nat} :
    position ∈ groupedClaims groups ↔ ∃ group ∈ groups, position ∈ group := by
  induction groups with
  | nil => simp
  | cons group later ih => simp [ih]

theorem Assigned.groups {candidate : List CitedClaim} {required : List (List String)}
    {taken final : Finset Nat} (h : Assigned candidate required taken final) :
    ∃ groups, SiblingGroups candidate taken required groups ∧
      final = taken ∪ groupedClaims groups := by
  induction h with
  | done taken => exact ⟨[], ⟨.nil, by simp, .nil⟩, by simp⟩
  | @group evidence later taken final group nonempty free exactly _ ih =>
      obtain ⟨groups, found, rfl⟩ := ih
      refine ⟨group :: groups, ⟨.cons ⟨nonempty, exactly⟩ found.matched, ?_, ?_⟩, ?_⟩
      · intro other mem
        cases mem with
        | head => exact free
        | tail _ further =>
            intro position held
            have := found.free other further held
            simp only [Finset.mem_sdiff, Finset.mem_union, not_or] at this ⊢
            exact ⟨this.1, this.2.1⟩
      · apply List.Pairwise.cons _ found.apart
        intro other further
        rw [Finset.disjoint_right]
        intro position held
        have := found.free other further held
        simp only [Finset.mem_sdiff, Finset.mem_union, not_or] at this
        exact this.2.2
      · simp [Finset.union_assoc]

theorem SiblingGroups.assigned {candidate : List CitedClaim} {required : List (List String)}
    {taken : Finset Nat} {groups : List (Finset Nat)}
    (h : SiblingGroups candidate taken required groups) :
    Assigned candidate required taken (taken ∪ groupedClaims groups) := by
  obtain ⟨matched, free, apart⟩ := h
  induction matched generalizing taken with
  | nil => simpa using Assigned.done taken
  | @cons group evidence groups later first _ ih =>
      rw [groupedClaims_cons, ← Finset.union_assoc]
      apply Assigned.group first.1 (free group List.mem_cons_self) first.2
      apply ih
      · intro other further position held
        have outside := free other (List.mem_cons_of_mem _ further) held
        have separate := Finset.disjoint_right.mp ((List.pairwise_cons.mp apart).1 other further) held
        simp only [Finset.mem_sdiff, Finset.mem_union, not_or] at outside ⊢
        exact ⟨outside.1, outside.2, separate⟩
      · exact (List.pairwise_cons.mp apart).2

theorem exists_assigned_iff {candidate : List CitedClaim} {required : List (List String)}
    {taken : Finset Nat} :
    (∃ final, Assigned candidate required taken final) ↔
      ∃ groups, SiblingGroups candidate taken required groups := by
  constructor
  · rintro ⟨final, assigned⟩
    obtain ⟨groups, found, _⟩ := assigned.groups
    exact ⟨groups, found⟩
  · rintro ⟨groups, found⟩
    exact ⟨_, found.assigned⟩

/-! ## The search -/

/-- What is remembered from an index on are states that cannot be settled. -/
def FailedOnly (candidate : List CitedClaim) (required : List (List String)) (index : Nat)
    (failed : FailedStates) : Prop :=
  ∀ state ∈ failed, index ≤ state.1 →
    ¬ ∃ final, Assigned candidate (required.drop state.1) (positionsOf state.2) final

/-- What a search from an index must have found, or remembered. -/
structure Searched (candidate : List CitedClaim) (required ahead : List (List String))
    (index : Nat) (taken : Finset Nat) (failed : FailedStates)
    (outcome : Option ClaimMask × FailedStates) : Prop where
  found : ∀ final, outcome.1 = some final → Assigned candidate ahead taken (positionsOf final)
  missed : outcome.1 = none → ¬ ∃ final, Assigned candidate ahead taken final
  remembered : outcome.1 = none → FailedOnly candidate required index outcome.2
  deeper : outcome.1 = none → ∀ state ∈ outcome.2, state ∈ failed ∨ index ≤ state.1

theorem positionsOf_allClaims {candidate : List CitedClaim}
    (few : candidate.length ≤ maxSummaryClaims) :
    positionsOf (allClaims candidate) = Finset.range candidate.length := by
  have each : ∀ n < 9, positionsOf ((1#16 <<< n) - 1#16) = Finset.range n := by decide
  exact each _ (Nat.lt_succ_of_le few)

theorem positionsOf_free {candidate : List CitedClaim}
    (few : candidate.length ≤ maxSummaryClaims) (consumedMask : ClaimMask) :
    positionsOf (allClaims candidate &&& ~~~consumedMask) =
      Finset.range candidate.length \ positionsOf consumedMask := by
  rw [← positionsOf_allClaims few]
  ext position
  simp only [mem_positionsOf, BitVec.getLsbD_and, BitVec.getLsbD_not, Finset.mem_sdiff,
    Bool.and_eq_true, Bool.not_eq_true, decide_eq_true_eq]
  constructor
  · rintro ⟨known, _, free⟩
    exact ⟨known, by simpa using free⟩
  · rintro ⟨known, free⟩
    exact ⟨known, BitVec.lt_of_getLsbD known, by simpa using free⟩

section Search

variable {candidate : List CitedClaim} {required later : List (List String)}
  {evidence : List String} {index : Nat}

/-- One level of the search, with the level below it known to be right.  The induction
is on the submask, and carries that no submask above it leads to an assignment. -/
theorem tryGroups_searched (few : candidate.length ≤ maxSummaryClaims) (consumedMask : ClaimMask)
    {assign : ClaimMask → FailedStates → Option ClaimMask × FailedStates}
    (below : ∀ mask failed, FailedOnly candidate required (index + 1) failed →
      Searched candidate required later (index + 1) (positionsOf mask) failed (assign mask failed))
    (subset : ClaimMask)
    (sub : Submask subset (allClaims candidate &&& ~~~consumedMask)) (failed : FailedStates)
    (remembered : FailedOnly candidate required (index + 1) failed)
    (tried : ∀ group : ClaimMask, Submask group (allClaims candidate &&& ~~~consumedMask) →
      subset.toNat < group.toNat →
      combinedEvidence candidate (positionsOf group) = (evidence : Multiset String) →
      ¬ ∃ final, Assigned candidate later (positionsOf consumedMask ∪ positionsOf group) final) :
    Searched candidate required (evidence :: later) (index + 1) (positionsOf consumedMask) failed
      (tryGroups candidate evidence consumedMask (allClaims candidate &&& ~~~consumedMask) assign
        subset failed) := by
  induction size : subset.toNat using Nat.strong_induction_on generalizing subset failed with
  | _ n ih =>
      subst size
      have onward (fresh : FailedStates)
          (nonzero : subset ≠ 0) (kept : FailedOnly candidate required (index + 1) fresh)
          (this : combinedEvidence candidate (positionsOf subset) = (evidence : Multiset String) →
            ¬ ∃ final, Assigned candidate later
              (positionsOf consumedMask ∪ positionsOf subset) final) :=
        ih _ (nextSubmask_lt nonzero (allClaims candidate &&& ~~~consumedMask)) _
          (nextSubmask_submask _ _) fresh kept
          (by
            intro group inside ahead exactly
            rcases Nat.lt_trichotomy group.toNat subset.toNat with less | same | more
            · have := toNat_le_nextSubmask sub inside less
              omega
            · cases BitVec.eq_of_toNat_eq same
              exact this exactly
            · exact tried group inside more exactly) rfl
      rw [tryGroups]
      by_cases empty : subset = 0
      · rw [if_pos empty]
        refine ⟨by simp, ?_, fun _ => remembered, fun _ state mem => .inl mem⟩
        rintro - ⟨final, assigned⟩
        cases assigned with
        | @group _ _ _ _ group nonempty free exactly rest =>
            have bounded : ∀ position ∈ group, position < 16 := by
              intro position held
              have := Finset.mem_range.mp (Finset.mem_sdiff.mp (free held)).1
              have : maxSummaryClaims = 8 := rfl
              omega
            have same := positionsOf_maskOf bounded
            apply tried (maskOf group)
            · rw [submask_iff_subset, same, positionsOf_free few]
              exact free
            · rw [empty]
              rcases Nat.eq_zero_or_pos (maskOf (w := 16) group).toNat with zero | positive
              · have none : maskOf (w := 16) group = 0 := BitVec.eq_of_toNat_eq (by simpa using zero)
                rw [← same, none, positionsOf_eq_empty.mpr rfl] at nonempty
                exact absurd nonempty Finset.not_nonempty_empty
              · simpa using positive
            · rw [same]
              exact exactly
            · rw [same]
              exact ⟨final, rest⟩
      · rw [if_neg empty]
        by_cases matching : subsetExactlyMatchesSibling candidate subset evidence = true
        · rw [if_pos matching]
          have exactly := (subsetExactlyMatchesSibling_iff candidate subset evidence).mp matching
          have search := below (consumedMask ||| subset) failed remembered
          rw [positionsOf_or] at search
          rcases outcome : assign (consumedMask ||| subset) failed with ⟨result, failed'⟩
          rw [outcome] at search
          cases result with
          | some final =>
              refine ⟨?_, by simp, by simp, by simp⟩
              intro final' same
              cases same
              apply Assigned.group _ _ exactly (search.found _ rfl)
              · rw [Finset.nonempty_iff_ne_empty]
                exact fun none => empty (positionsOf_eq_empty.mp none)
              · rw [← positionsOf_free few]
                exact submask_iff_subset.mp sub
          | none =>
              have rest := onward failed' empty (search.remembered rfl) fun _ => search.missed rfl
              refine ⟨rest.found, rest.missed, rest.remembered, fun nothing state mem => ?_⟩
              rcases rest.deeper nothing state mem with old | deep
              · exact search.deeper rfl state old
              · exact .inr deep
        · rw [if_neg matching]
          exact onward failed empty remembered fun exactly =>
            absurd ((subsetExactlyMatchesSibling_iff candidate subset evidence).mpr exactly) matching

/-- A state that is remembered as failed has failed, and no other is remembered. -/
theorem assignSiblings_searched (few : candidate.length ≤ maxSummaryClaims)
    (ahead : List (List String)) (start : required.drop index = ahead)
    (consumedMask : ClaimMask) (failed : FailedStates)
    (remembered : FailedOnly candidate required index failed) :
    Searched candidate required ahead index (positionsOf consumedMask) failed
      (assignSiblings candidate index ahead consumedMask failed) := by
  induction ahead generalizing index consumedMask failed with
  | nil =>
      refine ⟨?_, by simp [assignSiblings], by simp [assignSiblings], by simp [assignSiblings]⟩
      intro final same
      cases same
      exact .done _
  | cons evidence later ih =>
      rw [assignSiblings]
      by_cases visited : (index, consumedMask) ∈ failed
      · rw [if_pos visited]
        refine ⟨by simp, fun _ => ?_, fun _ => remembered, fun _ state mem => .inl mem⟩
        have failedHere := remembered _ visited (Nat.le_refl _)
        rwa [start] at failedHere
      · rw [if_neg visited]
        have rest : required.drop (index + 1) = later := by
          rw [← List.tail_drop, start, List.tail_cons]
        have search := @tryGroups_searched candidate required later evidence _ few consumedMask _
          (fun mask failed kept => ih rest mask failed kept) _ (submask_refl _)
          ((index, consumedMask) :: failed)
          (by
            intro state mem deep
            rcases List.mem_cons.mp mem with rfl | old
            · exact absurd deep (by simp)
            · exact remembered state old (by omega))
          (by
            intro group inside above
            have := submask_toNat_le inside
            omega)
        refine ⟨search.found, search.missed, fun nothing state mem deep => ?_,
          fun nothing state mem => ?_⟩
        · rcases search.deeper nothing state mem with old | deeper
          · rcases List.mem_cons.mp old with rfl | older
            · rw [start]
              exact search.missed nothing
            · exact remembered state older deep
          · exact search.remembered nothing state mem deeper
        · rcases search.deeper nothing state mem with old | deeper
          · rcases List.mem_cons.mp old with rfl | older
            · exact .inr (Nat.le_refl _)
            · exact .inl older
          · exact .inr (by omega)

end Search

/-! ## The flags -/

@[simp] theorem mem_flagged {consumed : List Bool} {position : Nat} :
    position ∈ flagged consumed ↔ consumed[position]? = some true := by
  simp only [flagged, Finset.mem_filter, Finset.mem_range, and_iff_right_iff_imp]
  intro held
  exact (List.getElem?_eq_some_iff.mp held).1

theorem getLsbD_flagsMask (flags : List Bool) (index : Nat) (mask : ClaimMask)
    (inside : index + flags.length ≤ 16) (i : Nat) :
    (flagsMask flags index mask).getLsbD i = true ↔
      mask.getLsbD i = true ∨ (index ≤ i ∧ flags[i - index]? = some true) := by
  induction flags generalizing index mask with
  | nil => simp [flagsMask]
  | cons flag later ih =>
      rw [List.length_cons] at inside
      have bit : (BitVec.ofNat 16 flag.toNat <<< index).getLsbD i = true ↔
          i = index ∧ flag = true := by
        cases flag with
        | false => simp
        | true =>
            simp only [Bool.toNat_true, BitVec.getLsbD_shiftLeft, Bool.and_eq_true,
              decide_eq_true_eq, Bool.not_eq_true', decide_eq_false_iff_not, Nat.not_lt,
              BitVec.getLsbD_one, and_true]
            omega
      rw [flagsMask, ih (index + 1) _ (by omega), BitVec.getLsbD_or, Bool.or_eq_true, bit, or_assoc]
      apply or_congr_right
      rcases Nat.lt_trichotomy i index with before | rfl | behind
      · constructor <;> intro held <;> omega
      · simp
      · have shift : i - index = (i - (index + 1)) + 1 := by omega
        rw [shift, List.getElem?_cons_succ]
        constructor
        · rintro (⟨same, _⟩ | ⟨_, held⟩)
          · omega
          · exact ⟨by omega, held⟩
        · rintro ⟨_, held⟩
          exact .inr ⟨by omega, held⟩

theorem positionsOf_flagsMask {consumed : List Bool} (inside : consumed.length ≤ 16) :
    positionsOf (flagsMask consumed 0 0#16) = flagged consumed := by
  ext position
  rw [mem_positionsOf, getLsbD_flagsMask consumed 0 0#16 (by omega), mem_flagged]
  simp

section Consumption

variable {candidate : List CitedClaim} {consumed : List Bool} {required : List (List String)}

theorem consumeRequiredSiblingClaims_eq (few : candidate.length ≤ maxSummaryClaims)
    (sized : consumed.length = candidate.length) :
    consumeRequiredSiblingClaims candidate consumed required =
      (assignSiblings candidate 0 required (flagsMask consumed 0 0#16) []).1.map fun finalMask =>
        consumed.zipIdx.map fun (_, index) => decide (finalMask &&& (1#16 <<< index) ≠ 0#16) := by
  rw [consumeRequiredSiblingClaims, if_neg (by omega)]
  cases (assignSiblings candidate 0 required (flagsMask consumed 0 0#16) []).1 with
  | none => rfl
  | some finalMask => rfl

theorem initial_searched (few : candidate.length ≤ maxSummaryClaims)
    (sized : consumed.length = candidate.length) :
    Searched candidate required required 0 (flagged consumed) []
      (assignSiblings candidate 0 required (flagsMask consumed 0 0#16) []) := by
  have eight : maxSummaryClaims = 8 := rfl
  rw [← positionsOf_flagsMask (by omega)]
  exact assignSiblings_searched few required rfl _ [] (by simp [FailedOnly])

theorem Assigned.final_subset {taken final : Finset Nat}
    (h : Assigned candidate required taken final)
    (inside : taken ⊆ Finset.range candidate.length) : final ⊆ Finset.range candidate.length := by
  induction h with
  | done => exact inside
  | group nonempty free exactly _ ih =>
      exact ih (Finset.union_subset inside (free.trans Finset.sdiff_subset))

theorem flagged_subset (sized : consumed.length = candidate.length) :
    flagged consumed ⊆ Finset.range candidate.length := by
  rw [← sized]
  exact Finset.filter_subset _ _

theorem flagged_mask {finalMask : ClaimMask} (sized : consumed.length = candidate.length)
    (inside : positionsOf finalMask ⊆ Finset.range candidate.length) :
    flagged (consumed.zipIdx.map fun (_, index) => decide (finalMask &&& (1#16 <<< index) ≠ 0#16)) =
      positionsOf finalMask := by
  ext position
  rw [mem_flagged, List.getElem?_map, mem_positionsOf]
  by_cases within : position < consumed.length
  · simp [List.getElem?_zipIdx, List.getElem?_eq_getElem within, and_bit_eq_zero]
  · have outside : position ∉ positionsOf finalMask := by
      intro held
      have := Finset.mem_range.mp (inside held)
      omega
    rw [mem_positionsOf] at outside
    simp [List.getElem?_zipIdx, List.getElem?_eq_none (Nat.le_of_not_lt within), outside]

theorem consume_isSome_iff (few : candidate.length ≤ maxSummaryClaims)
    (sized : consumed.length = candidate.length) :
    (consumeRequiredSiblingClaims candidate consumed required).isSome = true ↔
      ∃ groups, SiblingGroups candidate (flagged consumed) required groups := by
  have search := @initial_searched candidate consumed required few sized
  rw [consumeRequiredSiblingClaims_eq few sized, Option.isSome_map, ← exists_assigned_iff]
  cases result : (assignSiblings candidate 0 required (flagsMask consumed 0 0#16) []).1 with
  | none => simpa using search.missed result
  | some final => simpa using ⟨_, search.found final result⟩

theorem consume_marks (few : candidate.length ≤ maxSummaryClaims)
    (sized : consumed.length = candidate.length) {marked : List Bool}
    (done : consumeRequiredSiblingClaims candidate consumed required = some marked) :
    marked.length = candidate.length ∧
      ∃ groups, SiblingGroups candidate (flagged consumed) required groups ∧
        flagged marked = flagged consumed ∪ groupedClaims groups := by
  rw [consumeRequiredSiblingClaims_eq few sized] at done
  obtain ⟨final, result, rfl⟩ := Option.map_eq_some_iff.mp done
  have assigned := (@initial_searched candidate consumed required few sized).found final result
  obtain ⟨groups, found, same⟩ := assigned.groups
  refine ⟨by simp [sized], groups, found, ?_⟩
  rw [flagged_mask sized (assigned.final_subset (flagged_subset sized)), same]

end Consumption

/-! ## All claims are consumed, or none of the ways consumes them -/

theorem combinedEvidence_union {candidate : List CitedClaim} {left right : Finset Nat}
    (apart : Disjoint left right) :
    combinedEvidence candidate (left ∪ right) =
      combinedEvidence candidate left + combinedEvidence candidate right :=
  Finset.sum_union apart

/-- All evidence that is asked for. -/
def totalEvidence (required : List (List String)) : Multiset String :=
  (required.map fun evidence => (evidence : Multiset String)).sum

theorem SiblingGroups.total {candidate : List CitedClaim} {required : List (List String)}
    {taken : Finset Nat} {groups : List (Finset Nat)}
    (h : SiblingGroups candidate taken required groups) :
    combinedEvidence candidate (groupedClaims groups) = totalEvidence required := by
  obtain ⟨matched, free, apart⟩ := h
  induction matched with
  | nil => rfl
  | @cons group evidence groups later first _ ih =>
      have separate : Disjoint group (groupedClaims groups) := by
        rw [Finset.disjoint_right]
        intro position held
        obtain ⟨other, further, held⟩ := mem_groupedClaims.mp held
        exact Finset.disjoint_right.mp ((List.pairwise_cons.mp apart).1 other further) held
      have rest := ih (fun other further => free other (List.mem_cons_of_mem _ further))
        (List.pairwise_cons.mp apart).2
      rw [groupedClaims_cons, combinedEvidence_union separate, first.2, rest]
      simp [totalEvidence]

theorem SiblingGroups.grouped_subset {candidate : List CitedClaim} {required : List (List String)}
    {taken : Finset Nat} {groups : List (Finset Nat)}
    (h : SiblingGroups candidate taken required groups) :
    groupedClaims groups ⊆ Finset.range candidate.length \ taken := by
  intro position held
  obtain ⟨group, mem, held⟩ := mem_groupedClaims.mp held
  exact h.free group mem held

theorem combinedEvidence_eq_zero {candidate : List CitedClaim} {group : Finset Nat}
    (cited : ∀ claim ∈ candidate, claim.evidenceIds ≠ [])
    (inside : group ⊆ Finset.range candidate.length)
    (none : combinedEvidence candidate group = 0) : group = ∅ := by
  rw [Finset.eq_empty_iff_forall_notMem]
  intro position held
  have within := Finset.mem_range.mp (inside held)
  have zero : evidenceAt candidate position = 0 := by
    apply Multiset.le_zero.mp
    rw [← none, combinedEvidence, ← Finset.add_sum_erase group _ held]
    exact Multiset.le_add_right _ _
  rw [evidenceAt, List.getElem?_eq_getElem within] at zero
  exact cited _ (List.getElem_mem within) (Multiset.coe_eq_zero _ |>.mp zero)

/-- The units ask for the same evidence however they are settled, and no claim is without
evidence: so whether anything is left does not depend on the assignment. -/
theorem SiblingGroups.covers {candidate : List CitedClaim} {required : List (List String)}
    {taken : Finset Nat} {groups others : List (Finset Nat)}
    (cited : ∀ claim ∈ candidate, claim.evidenceIds ≠ [])
    (h : SiblingGroups candidate taken required groups)
    (h' : SiblingGroups candidate taken required others)
    (all : taken ∪ groupedClaims groups = Finset.range candidate.length) :
    taken ∪ groupedClaims others = Finset.range candidate.length := by
  have free : groupedClaims groups = Finset.range candidate.length \ taken := by
    apply Finset.Subset.antisymm h.grouped_subset
    rw [← all, Finset.union_sdiff_left]
    exact Finset.sdiff_subset
  have inside : groupedClaims others ⊆ groupedClaims groups := by
    rw [free]
    exact h'.grouped_subset
  have split := @combinedEvidence_union candidate _ _
    (Finset.disjoint_sdiff (s := groupedClaims others) (t := groupedClaims groups))
  rw [Finset.union_sdiff_of_subset inside, h.total, h'.total] at split
  have rest : groupedClaims groups \ groupedClaims others = ∅ := by
    apply combinedEvidence_eq_zero cited
    · exact Finset.sdiff_subset.trans (free ▸ Finset.sdiff_subset)
    · simpa using split
  rw [Finset.Subset.antisymm inside (Finset.sdiff_eq_empty_iff_subset.mp rest), all]

end DocumentSummarizer.Coherent
