import DocumentSummarizer.Coherent.SupportVerdicts

/-! # What the checks of material coverage answer

An answer is taken when it has one verdict for every pair of its request.  What it does to
the verdict on a claim does not depend on the order of the pairs.
-/

namespace DocumentSummarizer.Coherent

open DocumentSummarizer.Library DocumentSummarizer.Pipeline

/-! ## Maps by key -/

section Lookup

variable {κ ν : Type} [BEq κ] [LawfulBEq κ] {entries : List (κ × ν)} {key : κ}

theorem mem_of_lookup {value : ν} (found : entries.lookup key = some value) :
    (key, value) ∈ entries := by
  induction entries with
  | nil => cases found
  | cons entry rest ih =>
      obtain ⟨other, held⟩ := entry
      rw [List.lookup_cons] at found
      split at found
      · next same =>
          cases found
          rw [eq_of_beq same]
          exact List.mem_cons_self
      · exact List.mem_cons_of_mem _ (ih found)

theorem lookup_of_mem (mem : key ∈ entries.map (·.1)) :
    ∃ value, entries.lookup key = some value := by
  induction entries with
  | nil => cases mem
  | cons entry rest ih =>
      obtain ⟨other, held⟩ := entry
      rw [List.lookup_cons]
      split
      · exact ⟨held, rfl⟩
      · next different =>
          cases List.mem_cons.mp mem with
          | inl same =>
              rw [same] at different
              simp at different
          | inr later => exact ih later

theorem lookup_filter_of_ne {removed : κ} [DecidableEq κ] (different : key ≠ removed) :
    (entries.filter (·.1 ≠ removed)).lookup key = entries.lookup key := by
  induction entries with
  | nil => rfl
  | cons entry rest ih =>
      obtain ⟨other, held⟩ := entry
      by_cases same : other = removed
      · have apart : (key == other) = false := by simpa [same] using different
        rw [List.filter_cons_of_neg (by simp [same]), ih, List.lookup_cons, apart]
      · rw [List.filter_cons_of_pos (by simp [same]), List.lookup_cons, List.lookup_cons, ih]

theorem lookup_iff_mem (distinct : (entries.map (·.1)).Nodup) {value : ν} :
    entries.lookup key = some value ↔ (key, value) ∈ entries := by
  constructor
  · exact mem_of_lookup
  · intro mem
    obtain ⟨found, here⟩ := lookup_of_mem (List.mem_map_of_mem mem)
    have same := List.inj_on_of_nodup_map distinct (mem_of_lookup here) mem rfl
    cases same
    exact here

theorem lookup_perm {entries' : List (κ × ν)} (distinct : (entries.map (·.1)).Nodup)
    (perm : entries'.Perm entries) : entries'.lookup key = entries.lookup key := by
  apply Option.ext
  intro value
  rw [lookup_iff_mem distinct, lookup_iff_mem ((perm.map _).nodup_iff.mpr distinct), perm.mem_iff]

end Lookup

/-! ## One answer -/

section Answer

variable {verdicts rest : List (String × MaterialVerdict)} {entries : List (String × MaterialPair)}
  {results : List MaterialResult}

/-- The result of a pair is the verdict the map has under the pair's name. -/
structure TakenResult (verdicts : List (String × MaterialVerdict)) (entry : String × MaterialPair)
    (result : MaterialResult) : Prop where
  claimId : result.claimId = entry.2.claimId
  evidenceId : result.evidenceId = entry.2.evidenceId
  verdict : verdicts.lookup entry.1 = some result.verdict

theorem takenResult_filter {pairId : String} (different : ∀ entry ∈ entries, entry.1 ≠ pairId) :
    List.Forall₂ (TakenResult (verdicts.filter (·.1 ≠ pairId))) entries results ↔
      List.Forall₂ (TakenResult verdicts) entries results := by
  constructor
  · intro each
    refine ((List.forall₂_and_left _ _).mpr ⟨different, each⟩).imp fun entry result h => ?_
    exact ⟨h.2.claimId, h.2.evidenceId, (lookup_filter_of_ne h.1).symm.trans h.2.verdict⟩
  · intro each
    refine ((List.forall₂_and_left _ _).mpr ⟨different, each⟩).imp fun entry result h => ?_
    exact ⟨h.2.claimId, h.2.evidenceId, (lookup_filter_of_ne h.1).trans h.2.verdict⟩

theorem takeMaterialVerdicts_ok (distinct : (entries.map (·.1)).Nodup) :
    takeMaterialVerdicts verdicts entries = .ok (results, rest) ↔
      List.Forall₂ (TakenResult verdicts) entries results ∧
        rest = verdicts.filter fun verdict => decide (verdict.1 ∉ entries.map (·.1)) := by
  induction entries generalizing verdicts results with
  | nil => simp [takeMaterialVerdicts, eq_comm]
  | cons entry later ih =>
      obtain ⟨pairId, pair⟩ := entry
      obtain ⟨fresh, distinct⟩ := List.nodup_cons.mp distinct
      have different : ∀ other ∈ later, other.1 ≠ pairId := by
        intro other mem same
        exact fresh (List.mem_map.mpr ⟨other, mem, same⟩)
      have left : (verdicts.filter (·.1 ≠ pairId)).filter
          (fun verdict => decide (verdict.1 ∉ later.map (·.1))) =
          verdicts.filter fun verdict => decide (verdict.1 ∉ pairId :: later.map (·.1)) := by
        rw [List.filter_filter]
        apply List.filter_congr
        intro verdict _
        by_cases same : verdict.1 = pairId <;> simp [same]
      simp only [takeMaterialVerdicts, peel_ok, okOrElse_eq_ok, return_ok, Prod.exists,
        Prod.mk.injEq, List.map_cons, List.forall₂_cons_left_iff]
      constructor
      · rintro ⟨verdict, found, taken, behind, took, rfl, rfl⟩
        obtain ⟨each, rfl⟩ := (ih distinct).mp took
        exact ⟨⟨_, taken, ⟨rfl, rfl, found⟩, (takenResult_filter different).mp each, rfl⟩, left⟩
      · rintro ⟨⟨⟨claimId, evidenceId, verdict⟩, taken, ⟨rfl, rfl, found⟩, each, rfl⟩, rfl⟩
        exact ⟨verdict, found, taken, _,
          (ih distinct).mpr ⟨(takenResult_filter different).mpr each, left.symm⟩, rfl, rfl⟩

/-- The result of a pair is what the answer says under the pair's name. -/
structure AnswersPair (raw : RawMaterialResponse) (entry : String × MaterialPair)
    (result : MaterialResult) : Prop where
  claimId : result.claimId = entry.2.claimId
  evidenceId : result.evidenceId = entry.2.evidenceId
  verdict : ⟨entry.1, result.verdict⟩ ∈ raw.verdicts

/-- An answer is taken when its verdicts are about every pair of the request once. -/
theorem parseMaterialResponse_ok {fromStr : String → Option RawMaterialResponse}
    {response : String} {pairs : List MaterialPair} :
    parseMaterialResponse fromStr response pairs = .ok results ↔
      ∃ raw, fromStr response = some raw ∧
        (raw.verdicts.map (·.pairId)).Perm (ordinals "m" pairs.length) ∧
        List.Forall₂ (AnswersPair raw) ((ordinals "m" pairs.length).zip pairs) results := by
  have keys : ((ordinals "m" pairs.length).zip pairs).map (·.1) = ordinals "m" pairs.length :=
    List.map_fst_zip (Nat.le_of_eq (ordinals_length "m" pairs.length))
  have distinct : (((ordinals "m" pairs.length).zip pairs).map (·.1)).Nodup := by
    rw [keys]
    exact ordinals_nodup "m" pairs.length
  have names (raw : RawMaterialResponse) :
      (raw.verdicts.map fun verdict => (verdict.pairId, verdict.verdict)).map (·.1) =
        raw.verdicts.map (·.pairId) := by
    rw [List.map_map]
    rfl
  have under {raw : RawMaterialResponse} (once : (raw.verdicts.map (·.pairId)).Nodup)
      (entry : String × MaterialPair) (result : MaterialResult) :
      TakenResult (raw.verdicts.map fun verdict => (verdict.pairId, verdict.verdict)) entry result ↔
        AnswersPair raw entry result := by
    have found := @lookup_iff_mem _ _ _ _
      (raw.verdicts.map fun verdict => (verdict.pairId, verdict.verdict)) entry.1
      ((names raw).symm ▸ once) result.verdict
    have mem : (entry.1, result.verdict) ∈
        (raw.verdicts.map fun verdict => (verdict.pairId, verdict.verdict)) ↔
        ⟨entry.1, result.verdict⟩ ∈ raw.verdicts := by
      simp only [List.mem_map, Prod.mk.injEq]
      constructor
      · rintro ⟨verdict, held, name, said⟩
        exact name ▸ said ▸ held
      · exact fun held => ⟨_, held, rfl, rfl⟩
    constructor
    · exact fun h => ⟨h.claimId, h.evidenceId, mem.mp (found.mp h.verdict)⟩
    · exact fun h => ⟨h.claimId, h.evidenceId, found.mpr (mem.mpr h.verdict)⟩
  simp only [parseMaterialResponse, peel_ok, okOrElse_eq_ok, refuseIf_eq_ok, return_ok, not_not,
    Prod.exists, takeMaterialVerdicts_ok distinct, keys, exists_const, ne_eq]
  constructor
  · rintro ⟨raw, read, length, unique, taken, left, ⟨each, rfl⟩, none, rfl⟩
    have once : (raw.verdicts.map (·.pairId)).Nodup := by
      rw [← List.dedup_eq_self]
      apply (List.dedup_sublist _).eq_of_length
      rw [unique, List.length_map, length]
    have inside : raw.verdicts.map (·.pairId) ⊆ ordinals "m" pairs.length := by
      intro name mem
      by_contra foreign
      obtain ⟨verdict, held, rfl⟩ := List.mem_map.mp mem
      have kept : (verdict.pairId, verdict.verdict) ∈ ([] : List (String × MaterialVerdict)) := by
        rw [← none, List.mem_filter]
        exact ⟨List.mem_map_of_mem held, by simpa using foreign⟩
      cases kept
    refine ⟨raw, read, ?_, each.imp fun _ _ => (under once _ _).mp⟩
    apply (List.subperm_of_subset once inside).perm_of_length_le
    rw [ordinals_length, List.length_map, length]
  · rintro ⟨raw, read, perm, each⟩
    have once := perm.nodup_iff.mpr (ordinals_nodup "m" pairs.length)
    have length : raw.verdicts.length = pairs.length := by
      simpa [ordinals_length] using perm.length_eq
    refine ⟨raw, read, length, ?_, results, _, ⟨each.imp fun _ _ => (under once _ _).mpr, rfl⟩,
      ?_, rfl⟩
    · rw [List.dedup_eq_self.mpr once, List.length_map, length]
    · apply List.filter_eq_nil_iff.mpr
      intro entry mem foreign
      obtain ⟨verdict, held, rfl⟩ := List.mem_map.mp mem
      exact of_decide_eq_true foreign (perm.mem_iff.mp (List.mem_map_of_mem held))

end Answer

/-! ## What the answers do to a verdict -/

/-- The verdict that the answers leave to a claim that is supported so far. -/
def materialOutcome (answers : List MaterialVerdict) : ClaimVerdict :=
  if .notMaterial ∈ answers then .unsupported
  else if .ambiguous ∈ answers then .ambiguous
  else .supported

theorem materialOutcome_perm {answers answers' : List MaterialVerdict}
    (same : answers.Perm answers') : materialOutcome answers = materialOutcome answers' := by
  simp only [materialOutcome, same.mem_iff]

theorem materialOutcome_supported {answers : List MaterialVerdict} :
    materialOutcome answers = .supported ↔ ∀ answer ∈ answers, answer = .material := by
  unfold materialOutcome
  constructor
  · intro outcome answer mem
    cases answer with
    | material => rfl
    | notMaterial => simp [mem] at outcome
    | ambiguous =>
        split at outcome
        · cases outcome
        · simp at outcome
  · intro all
    have notMaterial : .notMaterial ∉ answers := fun mem => nomatch all _ mem
    have ambiguous : .ambiguous ∉ answers := fun mem => nomatch all _ mem
    simp [notMaterial, ambiguous]

section Merging

variable {required : List String} {verdicts : MaterialVerdicts} {claimId : String}

theorem downgradeOf_ok {downgrade : Option ClaimVerdict}
    (start : downgrade = none ∨ downgrade = some .ambiguous) {evidenceIds : List String}
    {answers : List MaterialVerdict}
    (each : List.Forall₂ (fun evidenceId answer =>
      verdicts.lookup (claimId, evidenceId) = some answer)
      (evidenceIds.filter (· ∈ required)) answers) :
    ∃ outcome, downgradeOf required verdicts claimId downgrade evidenceIds = .ok outcome ∧
      outcome.getD .supported =
        materialOutcome (answers ++ if downgrade = none then [] else [.ambiguous]) := by
  induction evidenceIds generalizing downgrade answers with
  | nil =>
      cases each
      rcases start with rfl | rfl <;> exact ⟨_, rfl, rfl⟩
  | cons evidenceId later ih =>
      by_cases mem : evidenceId ∈ required
      · rw [List.filter_cons_of_pos (by simpa using mem)] at each
        obtain ⟨answer, others, found, further, rfl⟩ := List.forall₂_cons_left_iff.mp each
        simp only [downgradeOf, if_pos mem, found, okOrElse_some, ok_then]
        cases answer with
        | material =>
            obtain ⟨outcome, rest, value⟩ := ih start further
            exact ⟨outcome, rest, by simpa [materialOutcome] using value⟩
        | notMaterial => exact ⟨_, rfl, by simp [materialOutcome]⟩
        | ambiguous =>
            obtain ⟨outcome, rest, value⟩ := ih (.inr rfl) further
            refine ⟨outcome, rest, value.trans ?_⟩
            rcases start with rfl | rfl <;> simp [materialOutcome]
      · rw [List.filter_cons_of_neg (by simpa using mem)] at each
        simp only [downgradeOf, if_neg mem]
        exact ih start each

/-- Merging leaves a verdict that does not support its claim, and otherwise takes the outcome of
the answers. -/
theorem mergeVerdict_ok {verification merged : ClaimVerification} {answers : List MaterialVerdict}
    (each : List.Forall₂ (fun evidenceId answer =>
      verdicts.lookup (verification.claimId, evidenceId) = some answer)
      (verification.evidenceIds.filter (· ∈ required)) answers)
    (done : mergeVerdict required verdicts verification = .ok merged) :
    merged = { verification with
      verdict := if verification.verdict = .supported then materialOutcome answers
        else verification.verdict } := by
  unfold mergeVerdict at done
  by_cases supported : verification.verdict = .supported
  · obtain ⟨outcome, found, value⟩ := downgradeOf_ok (.inl rfl) each
    simp only [supported, ne_eq, not_true_eq_false, if_false, found, ok_then] at done
    simp only [if_true, List.append_nil] at value
    rw [if_pos supported, ← value]
    cases outcome with
    | none =>
        cases done
        rw [Option.getD_none, ← supported]
    | some verdict =>
        cases done
        rfl
  · rw [if_pos supported] at done
    cases done
    rw [if_neg supported]

/-- The answers that there are decide the verdict wherever merging comes to an end. -/
theorem downgradeOf_eq {downgrade outcome : Option ClaimVerdict}
    (start : downgrade = none ∨ downgrade = some .ambiguous) {evidenceIds : List String}
    (done : downgradeOf required verdicts claimId downgrade evidenceIds = .ok outcome) :
    outcome.getD .supported = materialOutcome
      ((evidenceIds.filter (· ∈ required)).filterMap (fun evidenceId =>
          verdicts.lookup (claimId, evidenceId)) ++
        if downgrade = none then [] else [.ambiguous]) := by
  induction evidenceIds generalizing downgrade with
  | nil =>
      cases done
      rcases start with rfl | rfl <;> rfl
  | cons evidenceId later ih =>
      by_cases mem : evidenceId ∈ required
      · rw [downgradeOf, if_pos mem, peel_ok] at done
        obtain ⟨answer, found, done⟩ := done
        rw [okOrElse_eq_ok] at found
        rw [List.filter_cons_of_pos (by simpa using mem), List.filterMap_cons]
        simp only [found]
        cases answer with
        | material =>
            have value := ih start done
            generalize List.filterMap _ (later.filter _) = answers at value ⊢
            simpa [materialOutcome] using value
        | notMaterial =>
            cases done
            simp [materialOutcome]
        | ambiguous =>
            have value := ih (.inr rfl) done
            generalize List.filterMap _ (later.filter _) = answers at value ⊢
            refine value.trans ?_
            rcases start with rfl | rfl <;> simp [materialOutcome]
      · rw [downgradeOf, if_neg mem] at done
        rw [List.filter_cons_of_neg (by simpa using mem)]
        exact ih start done

theorem mergeVerdict_verdict {before after : ClaimVerification}
    (done : mergeVerdict required verdicts before = .ok after) :
    after.verdict = if before.verdict = .supported then
      materialOutcome ((before.evidenceIds.filter (· ∈ required)).filterMap fun evidenceId =>
        verdicts.lookup (before.claimId, evidenceId)) else before.verdict := by
  unfold mergeVerdict at done
  by_cases supported : before.verdict = .supported
  · simp only [supported, ne_eq, not_true_eq_false, if_false, peel_ok] at done
    obtain ⟨outcome, found, done⟩ := done
    have value := downgradeOf_eq (.inl rfl) found
    rw [if_pos rfl, List.append_nil] at value
    rw [if_pos supported, ← value]
    cases outcome <;> cases done
    · exact supported
    · rfl
  · rw [if_pos supported] at done
    cases done
    rw [if_neg supported]

theorem mergeVerdict_perm {verdicts' : MaterialVerdicts}
    {before before' after after' : ClaimVerification} (distinct : (verdicts.map (·.1)).Nodup)
    (answers : verdicts'.Perm verdicts) (same : before'.claimId = before.claimId)
    (said : before'.verdict = before.verdict)
    (cited : before'.evidenceIds.Perm before.evidenceIds)
    (done : mergeVerdict required verdicts before = .ok after)
    (done' : mergeVerdict required verdicts' before' = .ok after') :
    after'.verdict = after.verdict := by
  rw [mergeVerdict_verdict done, mergeVerdict_verdict done', said, same]
  simp only [lookup_perm distinct answers]
  rw [materialOutcome_perm ((cited.filter _).filterMap _)]

theorem mergeVerdict_unsupported {verification merged : ClaimVerification}
    (unsupported : verification.verdict ≠ .supported)
    (done : mergeVerdict required verdicts verification = .ok merged) : merged = verification := by
  rw [mergeVerdict, if_pos unsupported] at done
  cases done
  rfl

end Merging

end DocumentSummarizer.Coherent
