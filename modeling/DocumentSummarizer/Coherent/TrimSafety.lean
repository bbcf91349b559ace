import DocumentSummarizer.Coherent.OfferedSources
import DocumentSummarizer.Coherent.TrimRecovery
import DocumentSummarizer.Library.JsonText

/-! # Trimming invents nothing and hides nothing

A recovered answer is the units of the model in their order: each whole, cut behind a
complete sentence, or withheld and counted.  The claims that a warning names are those whose
text was cut.
-/

namespace DocumentSummarizer.Coherent

open DocumentSummarizer.Library DocumentSummarizer.Pipeline

/-! ## Computations that do not panic -/

section Steady

variable {α β : Type}

def Steady (result : Interruptible α) : Prop :=
  result ≠ .error .panicked

theorem steady_ok (a : α) : Steady (.ok a) := by
  simp [Steady]

theorem steady_propagate (result : Except PipelineFailure α) : Steady (propagate result) := by
  cases result <;> simp [Steady, propagate, Except.mapError]

theorem Steady.bind {first : Interruptible α} {rest : α → Interruptible β}
    (steady : Steady first) (later : ∀ a, first = .ok a → Steady (rest a)) :
    Steady (first >>= rest) := by
  cases first with
  | error interruption =>
      intro panicked
      cases panicked
      exact steady rfl
  | ok a => exact later a rfl

theorem propagate_eq_ok {result : Except PipelineFailure α} {a : α} :
    propagate result = .ok a ↔ result = .ok a :=
  mapError_ok_iff

end Steady

/-! ## One text -/

section Texts

variable {tables : CompletionTables} {text : String} {ceiling : Nat}

theorem cutQualification_iff {tail : List Char} :
    cutQualification tables tail = true ↔ Qualifies tables tail := by
  unfold cutQualification Qualifies
  cases leadWords tables tail with
  | nil => simp
  | cons first later =>
      cases later with
      | nil => simp [or_assoc]
      | cons second others => simp [or_assoc, List.prefix_cons_iff]

theorem cut_unique {front back front' back' : List Char} (same : front ++ back = front' ++ back')
    (size : byteLength front = byteLength front') : front = front' ∧ back = back' := by
  obtain ⟨middle, rfl, rfl⟩ := front_of_le same (Nat.le_of_eq size)
  have empty : byteLength middle = 0 := by
    rw [byteLength_append] at size
    omega
  obtain rfl := byteLength_eq_zero.mp empty
  simp

theorem lastSentence_boundary {source : List Char} {sentences : List (Nat × Nat)}
    {start finish rest : Nat}
    (found : sentenceUnitsV13 tables.sentences source = some (sentences, rest))
    (last : sentences.getLast? = some (start, finish)) :
    ∃ front back, source = front ++ back ∧ byteLength front = finish := by
  obtain ⟨units, tail, units_found, tiles, _⟩ := @sentenceUnitsV13_spec tables.sentences source
  cases found.symm.trans units_found
  obtain ⟨part, sliced, _⟩ := tiles.mem (List.mem_of_getLast? last)
  exact (boundaries_of_slice sliced).2.1

theorem safePrefix_spec (tables : CompletionTables) (text : String) :
    (∃ kept tail, safePrefix tables text = .ok (some kept) ∧ SafeCut tables text kept tail) ∨
      (safePrefix tables text = .ok none ∧ ∀ kept tail, ¬ SafeCut tables text kept tail) := by
  obtain ⟨sentences, rest, found, _⟩ := @sentenceUnitsV13_spec tables.sentences text.toList
  unfold safePrefix
  simp only [found, okOrElse_some, ok_then]
  cases last : sentences.getLast? with
  | none =>
      refine .inr ⟨rfl, fun kept tail cut => ?_⟩
      obtain ⟨_, _, _, found', last'⟩ := cut.sentence
      cases found.symm.trans found'
      cases last.symm.trans last'
  | some entry =>
      obtain ⟨start, finish⟩ := entry
      obtain ⟨front, back, split, size⟩ := lastSentence_boundary found last
      have rest_slice : byteSlice text.toList finish (byteLength text.toList) = some back := by
        rw [split, ← size]
        exact byteSlice_eq_some.mpr ⟨front, [], by simp, rfl, by simp⟩
      have front_slice : byteSlice text.toList 0 finish = some front := by
        rw [split, ← size]
        exact byteSlice_eq_some.mpr ⟨[], back, rfl, rfl, by simp⟩
      -- any safe cut is the one at this sentence end
      have only : ∀ kept tail, SafeCut tables text kept tail →
          kept = String.ofList front ∧ tail = back := by
        intro kept tail cut
        obtain ⟨_, _, _, found', last'⟩ := cut.sentence
        cases found.symm.trans found'
        have same := Prod.mk.inj (Option.some.inj (last.symm.trans last'))
        obtain ⟨same_front, same_back⟩ :=
          cut_unique (cut.split.symm.trans split) (same.2.symm.trans size.symm)
        exact ⟨by rw [← same_front, String.ofList_toList], same_back⟩
      simp only [rest_slice, front_slice, okOrElse_some, ok_then]
      by_cases qualifies : cutQualification tables (trimStart back) = true
      · rw [if_pos qualifies]
        refine .inr ⟨rfl, fun kept tail cut => ?_⟩
        obtain ⟨_, rfl⟩ := only kept tail cut
        exact cut.unqualified (cutQualification_iff.mp qualifies)
      · rw [if_neg qualifies]
        by_cases fit : canonicalBoundedText (String.ofList front) text.toList.length = true ∧
            completionValid tables front = true
        · rw [if_pos fit]
          refine .inl ⟨String.ofList front, back, rfl, ⟨by simpa using split,
            ⟨sentences, start, rest, found, by simpa [size] using last⟩, fit.1,
            by simpa using fit.2, fun h => qualifies (cutQualification_iff.mpr h)⟩⟩
        · rw [if_neg fit]
          refine .inr ⟨rfl, fun kept tail cut => ?_⟩
          obtain ⟨rfl, _⟩ := only kept tail cut
          exact fit ⟨cut.canonical, by simpa using cut.complete⟩

theorem SafeCut.ne {kept : String} {tail : List Char} (cut : SafeCut tables text kept tail)
    (isClipped : clipped tables text ceiling = true) : kept ≠ text := by
  rintro rfl
  simp only [clipped, cut.complete, Bool.not_true, Bool.and_false, Bool.false_eq_true] at isClipped

end Texts

/-! ## The units -/

section Units

variable {platform : RecoveryPlatform} {documentId : String} {catalog : SourceCatalog}
  {maximumUnits maximumCharacters : Nat}

/-- What is written is read back. -/
def AnswersReadBack (platform : RecoveryPlatform) : Prop :=
  ∀ raw json, platform.toJson raw = some json → platform.fromStr json = some raw

theorem parseUnits_spec (readsBack : AnswersReadBack platform) (distinct : DistinctSources catalog)
    {units : List RawUnit} {claims : List CitedClaim} {evidence : List EvidenceItem}
    (parsed : parseUnits platform documentId catalog maximumUnits maximumCharacters units =
      .ok (claims, evidence)) :
    (∀ unit ∈ units, AdmissibleUnit platform.tables .general catalog maximumCharacters unit) ∧
      claims.map (fun claim => (claim.text, claim.evidenceIds)) =
        units.map (renderedUnit .general catalog) ∧
      (claims.map (·.claimId)).Nodup := by
  simp only [parseUnits, peel_ok, propagate_eq_ok, okOrElse_eq_ok] at parsed
  obtain ⟨json, written, taken⟩ := parsed
  obtain ⟨raw, read, admissible, texts, distinctIds, _⟩ :=
    parseResponse_spec distinct (by decide) taken
  cases read.symm.trans (readsBack _ _ written)
  exact ⟨admissible.units, texts, distinctIds⟩

theorem AdmissibleUnit.sources {tables : CompletionTables} {unit : RawUnit}
    (admissible : AdmissibleUnit tables .general catalog maximumCharacters unit) :
    AdmissibleSources catalog unit :=
  ⟨admissible.cites, admissible.few, admissible.distinct, admissible.known, admissible.oneWindow,
    admissible.oneFraming rfl⟩

theorem sources_of_probe {unit : RawUnit}
    (h : AdmissibleSources catalog (probeOf platform maximumCharacters unit)) :
    AdmissibleSources catalog unit := by
  have same : (probeOf platform maximumCharacters unit).sourceIds = unit.sourceIds := by
    unfold probeOf
    split <;> rfl
  have cited : citedSources catalog (probeOf platform maximumCharacters unit) =
      citedSources catalog unit := by
    unfold citedSources
    rw [same]
  obtain ⟨cites, few, once, known, oneWindow, oneFraming⟩ := h
  rw [same] at cites few once known
  rw [cited] at oneWindow oneFraming
  exact ⟨cites, few, once, known, oneWindow, oneFraming⟩

/-- The places of the shortened units among those that are kept. -/
def shortenedPositions (start : Nat) (kept : List (RawUnit × RawUnit)) : List Nat :=
  ((kept.zipIdx start).filter fun entry => decide (entry.1.2.text ≠ entry.1.1.text)).map (·.2)

/-- The units that were gone through, from a state to a later one. -/
structure Progress (tables : CompletionTables) (catalog : SourceCatalog) (ceiling : Nat)
    (state final : Recovered) (units : List RawUnit) (outcomes : List (Option RawUnit)) :
    Prop where
  each : List.Forall₂ (UnitOutcome tables ceiling) units outcomes
  sources : ∀ unit ∈ units, AdmissibleSources catalog unit
  retained : final.retained = state.retained ++ (survivors units outcomes).map (·.2)
  withheld : final.withheld = state.withheld + outcomes.count none
  positions : final.trimmedPositions =
    state.trimmedPositions ++ shortenedPositions state.retained.length (survivors units outcomes)

variable {tables : CompletionTables} {ceiling : Nat} {state final : Recovered} {unit : RawUnit}
  {units : List RawUnit} {outcomes : List (Option RawUnit)}

theorem Progress.withheldUnit (outcome : UnitOutcome tables ceiling unit none)
    (sources : AdmissibleSources catalog unit)
    (later : Progress tables catalog ceiling { state with withheld := state.withheld + 1 } final
      units outcomes) :
    Progress tables catalog ceiling state final (unit :: units) (none :: outcomes) where
  each := .cons outcome later.each
  sources := List.forall_mem_cons.mpr ⟨sources, later.sources⟩
  retained := later.retained
  withheld := by
    have := later.withheld
    simp only [List.count_cons_self] at this ⊢
    omega
  positions := later.positions

theorem Progress.whole (unclipped : clipped tables unit.text ceiling = false)
    (sources : AdmissibleSources catalog unit)
    (later : Progress tables catalog ceiling { state with retained := state.retained ++ [unit] }
      final units outcomes) :
    Progress tables catalog ceiling state final (unit :: units) (some unit :: outcomes) where
  each := .cons (.whole unclipped) later.each
  sources := List.forall_mem_cons.mpr ⟨sources, later.sources⟩
  retained := by
    simpa [survivors] using later.retained
  withheld := by
    simpa using later.withheld
  positions := by
    simpa [survivors, shortenedPositions] using later.positions

theorem Progress.trimmed {text : String} {tail : List Char}
    (isClipped : clipped tables unit.text ceiling = true)
    (cut : SafeCut tables unit.text text tail) (sources : AdmissibleSources catalog unit)
    (later : Progress tables catalog ceiling
      { state with
        trimmedPositions := state.trimmedPositions ++ [state.retained.length]
        retained := state.retained ++ [{ unit with text := text }] } final units outcomes) :
    Progress tables catalog ceiling state final (unit :: units)
      (some { unit with text := text } :: outcomes) where
  each := .cons (.trimmed isClipped cut) later.each
  sources := List.forall_mem_cons.mpr ⟨sources, later.sources⟩
  retained := by
    simpa [survivors] using later.retained
  withheld := by
    simpa using later.withheld
  positions := by
    simpa [survivors, shortenedPositions, cut.ne isClipped] using later.positions

theorem recoverUnits_ok (readsBack : AnswersReadBack platform) (distinct : DistinctSources catalog)
    (done : recoverUnits platform documentId catalog maximumUnits maximumCharacters state units =
      .ok final) :
    ∃ outcomes,
      Progress platform.tables catalog maximumCharacters state final units outcomes := by
  induction units generalizing state with
  | nil =>
      cases done
      exact ⟨[], .nil, by simp, by simp [survivors], by simp, by
        simp [survivors, shortenedPositions]⟩
  | cons unit later ih =>
      simp only [recoverUnits, peel_ok] at done
      obtain ⟨⟨claims, evidence⟩, probed, rest⟩ := done
      have sources := sources_of_probe
        ((parseUnits_spec readsBack distinct probed).1 _ List.mem_cons_self).sources
      by_cases isClipped : clipped platform.tables unit.text maximumCharacters = true
      · simp only [if_pos isClipped, peel_ok] at rest
        obtain ⟨found, cutting, rest⟩ := rest
        rcases safePrefix_spec platform.tables unit.text with ⟨kept, tail, cut_found, cut⟩ |
            ⟨none_found, unsafeCut⟩
        · cases cutting.symm.trans cut_found
          obtain ⟨outcomes, progress⟩ := ih rest
          exact ⟨_, progress.trimmed isClipped cut sources⟩
        · cases cutting.symm.trans none_found
          obtain ⟨outcomes, progress⟩ := ih rest
          exact ⟨_, progress.withheldUnit (.withheld isClipped unsafeCut) sources⟩
      · rw [if_neg isClipped] at rest
        obtain ⟨outcomes, progress⟩ := ih rest
        exact ⟨_, progress.whole (Bool.eq_false_iff.mpr isClipped) sources⟩

theorem steady_parseUnits :
    Steady (parseUnits platform documentId catalog maximumUnits maximumCharacters units) :=
  (steady_propagate _).bind fun _ _ => steady_propagate _

theorem steady_recoverUnits : Steady (recoverUnits platform documentId catalog maximumUnits
    maximumCharacters state units) := by
  induction units generalizing state with
  | nil => exact steady_ok _
  | cons unit later ih =>
      refine steady_parseUnits.bind fun _ _ => ?_
      split
      · refine Steady.bind ?_ fun found _ => ?_
        · rcases safePrefix_spec platform.tables unit.text with ⟨_, _, found, _⟩ | ⟨found, _⟩
          · rw [found]
            exact steady_ok _
          · rw [found]
            exact steady_ok _
        · cases found <;> exact ih
      · exact ih

end Units

/-! ## The units that are kept -/

section Kept

variable {tables : CompletionTables} {ceiling : Nat} {units : List RawUnit}
  {outcomes : List (Option RawUnit)}

theorem survivors_sublist (same : units.length = outcomes.length) :
    ((survivors units outcomes).map (·.1)).Sublist units ∧
      (survivors units outcomes).length + outcomes.count none = units.length := by
  induction units generalizing outcomes with
  | nil =>
      cases outcomes with
      | nil => simp [survivors]
      | cons outcome later => cases same
  | cons unit rest ih =>
      cases outcomes with
      | nil => cases same
      | cons outcome later =>
          obtain ⟨sublist, counted⟩ := ih (Nat.succ.inj same)
          cases outcome with
          | none =>
              refine ⟨sublist.cons unit, ?_⟩
              simp only [survivors, List.zip_cons_cons, List.filterMap_cons, Option.map_none,
                List.count_cons_self, List.length_cons] at counted ⊢
              omega
          | some kept =>
              refine ⟨sublist.cons_cons unit, ?_⟩
              simp only [survivors, List.zip_cons_cons, List.filterMap_cons, Option.map_some,
                List.length_cons, ne_eq, reduceCtorEq, not_false_eq_true,
                List.count_cons_of_ne] at counted ⊢
              omega

theorem survivors_outcome (each : List.Forall₂ (UnitOutcome tables ceiling) units outcomes) :
    ∀ kept ∈ survivors units outcomes, UnitOutcome tables ceiling kept.1 (some kept.2) := by
  induction each with
  | nil => simp [survivors]
  | @cons unit outcome rest later here _ ih =>
      cases outcome with
      | none => exact ih
      | some kept => exact List.forall_mem_cons.mpr ⟨here, ih⟩

theorem UnitOutcome.kept {unit kept : RawUnit} (h : UnitOutcome tables ceiling unit (some kept)) :
    kept.sourceIds = unit.sourceIds ∧
      (kept.text = unit.text ∨
        ∃ tail, tail ≠ [] ∧ SafeCut tables unit.text kept.text tail) := by
  cases h with
  | whole _ => exact ⟨rfl, .inl rfl⟩
  | @trimmed text tail isClipped cut =>
      refine ⟨rfl, .inr ⟨tail, ?_, cut⟩⟩
      rintro rfl
      have whole := cut.split
      rw [List.append_nil] at whole
      exact cut.ne isClipped (String.toList_inj.mp whole).symm

end Kept

/-! ## The warnings -/

section Warnings

variable {claims : List CitedClaim} {kept : List (RawUnit × RawUnit)} {claim : CitedClaim}

theorem shortenedClaims_sublist (same : claims.length = kept.length) :
    (shortenedClaims claims kept).Sublist claims := by
  have fronts := (List.filter_sublist (p := fun entry : CitedClaim × RawUnit × RawUnit =>
    decide (entry.2.2.text ≠ entry.2.1.text)) (l := claims.zip kept)).map Prod.fst
  rwa [List.map_fst_zip (Nat.le_of_eq same)] at fronts

section Cons

variable {first : RawUnit × RawUnit} {start : Nat}

theorem shortenedPositions_cons (start : Nat) :
    shortenedPositions start (first :: kept) =
      (if first.2.text ≠ first.1.text then [start] else []) ++
        shortenedPositions (start + 1) kept := by
  by_cases changed : first.2.text = first.1.text <;> simp [shortenedPositions, changed]

theorem shortenedClaims_cons :
    shortenedClaims (claim :: claims) (first :: kept) =
      (if first.2.text ≠ first.1.text then [claim] else []) ++ shortenedClaims claims kept := by
  by_cases changed : first.2.text = first.1.text <;> simp [shortenedClaims, changed]

end Cons

/-- The positions that were noted are positions of claims, and of the shortened ones. -/
theorem trimmedWarnings_shortened (front : List CitedClaim)
    (same : claims.length = kept.length) :
    trimmedWarnings (front ++ claims) (shortenedPositions front.length kept) =
      .ok ((shortenedClaims claims kept).map fun claim => trimmedWarning claim.claimId) := by
  induction kept generalizing claims front with
  | nil => simp [shortenedPositions, shortenedClaims, trimmedWarnings, pure, Except.pure]
  | cons first later ih =>
      cases claims with
      | nil => cases same
      | cons claim rest =>
          have next := ih (front ++ [claim]) (Nat.succ.inj same)
          rw [List.append_assoc, List.singleton_append, List.length_append,
            List.length_singleton] at next
          rw [shortenedPositions_cons, shortenedClaims_cons]
          by_cases changed : first.2.text = first.1.text
          · simpa [changed] using next
          · have here : indexed (front ++ claim :: rest) front.length = .ok claim := by
              simp [indexed, okOrElse]
            rw [trimmedWarnings] at next ⊢
            simp only [ne_eq, changed, not_false_eq_true, if_true, List.singleton_append,
              List.mapM_cons, here, ok_then, next, List.map_cons]
            rfl

theorem trimmedMessage_inj {a b : String} (same : trimmedMessage a = trimmedMessage b) : a = b := by
  have lists := congrArg String.toList same
  simp only [trimmedMessage, String.toList_append] at lists
  exact String.toList_inj.mp (List.append_cancel_left (List.append_cancel_right lists))

theorem wasTrimmed_iff (same : claims.length = kept.length)
    (once : (claims.map (·.claimId)).Nodup) (mem : claim ∈ claims)
    (withheld : Nat) :
    wasTrimmed claim ((shortenedClaims claims kept).map
          (fun claim => trimmedWarning claim.claimId) ++
        if 0 < withheld then [withheldUnitsWarning withheld] else []) = true ↔
      claim ∈ shortenedClaims claims kept := by
  have apart : withheldCode ≠ trimmedCode := by decide
  simp only [wasTrimmed, List.any_append, List.any_map, Bool.or_eq_true, List.any_eq_true,
    Function.comp_apply, trimmedWarning, decide_true, Bool.true_and, Bool.and_true,
    decide_eq_true_eq, Bool.and_eq_true]
  constructor
  · rintro (⟨other, shortened, message⟩ | ⟨warning, held, ⟨code, _⟩, _⟩)
    · have ids := trimmedMessage_inj message
      cases List.inj_on_of_nodup_map once
        ((shortenedClaims_sublist same).subset shortened) mem ids
      exact shortened
    · split at held
      · cases List.mem_singleton.mp held
        exact absurd code apart
      · cases held
  · exact fun shortened => .inl ⟨claim, shortened, rfl⟩

end Warnings

/-! ## The recovery -/

section Recovery

variable {platform : RecoveryPlatform} {catalog : SourceCatalog} {response documentId : String}
  {maximumUnits maximumCharacters : Nat}

/-- What a recovered answer is of the units of the model. -/
structure Faithful (platform : RecoveryPlatform) (catalog : SourceCatalog) (ceiling : Nat)
    (units : List RawUnit) (outcomes : List (Option RawUnit)) (content : GeneratedSummaryContent) :
    Prop where
  each : List.Forall₂ (UnitOutcome platform.tables ceiling) units outcomes
  sources : ∀ unit ∈ units, AdmissibleSources catalog unit
  claims : content.claims.map (fun claim => (claim.text, claim.evidenceIds)) =
    (survivors units outcomes).map fun kept => renderedUnit .general catalog kept.2
  ids : (content.claims.map (·.claimId)).Nodup
  warnings : content.trimWarnings =
    (shortenedClaims content.claims (survivors units outcomes)).map
        (fun claim => trimmedWarning claim.claimId) ++
      if 0 < outcomes.count none then [withheldUnitsWarning (outcomes.count none)] else []

theorem claims_of_retained (readsBack : AnswersReadBack platform)
    (distinct : DistinctSources catalog)
    {final : Recovered} {units : List RawUnit} {outcomes : List (Option RawUnit)}
    {claims : List CitedClaim} {evidence : List EvidenceItem}
    (progress : Progress platform.tables catalog maximumCharacters ⟨[], [], 0⟩ final units outcomes)
    (parsed : parseUnits platform documentId catalog maximumUnits maximumCharacters final.retained =
      .ok (claims, evidence)) :
    claims.map (fun claim => (claim.text, claim.evidenceIds)) =
        (survivors units outcomes).map (fun kept => renderedUnit .general catalog kept.2) ∧
      (claims.map (·.claimId)).Nodup ∧
      trimmedWarnings claims final.trimmedPositions =
        .ok ((shortenedClaims claims (survivors units outcomes)).map
          fun claim => trimmedWarning claim.claimId) := by
  have retained := progress.retained
  have positions := progress.positions
  simp only [List.nil_append, List.length_nil] at retained positions
  obtain ⟨_, texts, ids⟩ := parseUnits_spec readsBack distinct parsed
  rw [retained, List.map_map] at texts
  have same : claims.length = (survivors units outcomes).length := by
    simpa using congrArg List.length texts
  have named := trimmedWarnings_shortened [] same
  rw [List.nil_append, List.length_nil, ← positions] at named
  exact ⟨texts, ids, named⟩

theorem recover_some (readsBack : AnswersReadBack platform) (distinct : DistinctSources catalog)
    {content : GeneratedSummaryContent}
    (recovered : recover platform documentId catalog maximumUnits maximumCharacters response =
      .ok (some content)) :
    ∃ raw outcomes, platform.fromStr response = some raw ∧
      Faithful platform catalog maximumCharacters raw.units outcomes content := by
  unfold recover at recovered
  cases read : platform.fromStr response with
  | none =>
      rw [read] at recovered
      cases recovered
  | some raw =>
      simp only [read] at recovered
      split at recovered
      · simp only [peel_ok, propagate_eq_ok, refuseIf_eq_ok, return_ok] at recovered
        obtain ⟨_, _, final, gone, _, _, ⟨claims, evidence⟩, parsed, warnings, trimmed, done⟩ :=
          recovered
        cases done
        obtain ⟨outcomes, progress⟩ := recoverUnits_ok readsBack distinct gone
        obtain ⟨texts, ids, named⟩ := claims_of_retained readsBack distinct progress parsed
        cases trimmed.symm.trans named
        have withheld := progress.withheld
        rw [Nat.zero_add] at withheld
        exact ⟨raw, outcomes, rfl, progress.each, progress.sources, texts, ids, by rw [withheld]⟩
      · cases recovered

theorem steady_recover (readsBack : AnswersReadBack platform) (distinct : DistinctSources catalog) :
    Steady (recover platform documentId catalog maximumUnits maximumCharacters response) := by
  unfold recover
  cases platform.fromStr response with
  | none => exact steady_ok _
  | some raw =>
      dsimp only
      split
      · apply (steady_propagate _).bind
        intro _ _
        apply steady_recoverUnits.bind
        intro final gone
        apply (steady_propagate _).bind
        intro _ _
        apply steady_parseUnits.bind
        intro ⟨claims, evidence⟩ parsed
        obtain ⟨outcomes, progress⟩ := recoverUnits_ok readsBack distinct gone
        obtain ⟨_, _, named⟩ := claims_of_retained readsBack distinct progress parsed
        dsimp only
        rw [named]
        exact steady_ok _
      · exact steady_ok _

/-- A recovered answer is faithful to the units of the model, its warnings name the claims that
were shortened, and sources that may not stand together refuse the answer, whatever becomes
of the text over them. -/
theorem trimming_faithful (platform : RecoveryPlatform) (readsBack : AnswersReadBack platform)
    {catalog : SourceCatalog} (distinct : DistinctSources catalog) (response documentId : String)
    (maximumUnits maximumCharacters : Nat) :
    recover platform documentId catalog maximumUnits maximumCharacters response ≠
        .error .panicked ∧
    (∀ content, recover platform documentId catalog maximumUnits maximumCharacters response =
        .ok (some content) →
      ∃ raw outcomes, platform.fromStr response = some raw ∧
        Faithful platform catalog maximumCharacters raw.units outcomes content ∧
        (∀ kept ∈ survivors raw.units outcomes, kept.2.sourceIds = kept.1.sourceIds ∧
          (kept.2.text = kept.1.text ∨ ∃ tail, tail ≠ [] ∧
            SafeCut platform.tables kept.1.text kept.2.text tail)) ∧
        ((survivors raw.units outcomes).map (·.1)).Sublist raw.units ∧
        content.claims.length + outcomes.count none = raw.units.length ∧
        ∀ claim ∈ content.claims, wasTrimmed claim content.trimWarnings = true ↔
          claim ∈ shortenedClaims content.claims (survivors raw.units outcomes)) ∧
    (∀ raw unit, platform.fromStr response = some raw → unit ∈ raw.units →
      ¬ AdmissibleSources catalog unit →
      ∃ failure,
        recover platform documentId catalog maximumUnits maximumCharacters response =
            .error (.failure failure) ∨
          (recover platform documentId catalog maximumUnits maximumCharacters response = .ok none ∧
            parseResponseWithLimits platform.toUnitPlatform .general response documentId catalog
              maximumUnits maximumCharacters = .error failure)) := by
  refine ⟨steady_recover readsBack distinct, ?_, ?_⟩
  · intro content recovered
    obtain ⟨raw, outcomes, read, faithful⟩ := recover_some readsBack distinct recovered
    obtain ⟨sublist, counted⟩ := survivors_sublist faithful.each.length_eq
    have same : content.claims.length = (survivors raw.units outcomes).length := by
      simpa using congrArg List.length faithful.claims
    refine ⟨raw, outcomes, read, faithful, ?_, sublist, by omega, ?_⟩
    · intro kept mem
      exact (survivors_outcome faithful.each kept mem).kept
    · intro claim mem
      rw [faithful.warnings]
      exact wasTrimmed_iff same faithful.ids mem _
  · intro raw unit read mem foreign
    cases result : recover platform documentId catalog maximumUnits maximumCharacters response with
    | error interruption =>
        cases interruption with
        | panicked => exact absurd result (steady_recover readsBack distinct)
        | failure failure => exact ⟨failure, .inl rfl⟩
    | ok content =>
        cases content with
        | some content =>
            obtain ⟨raw', _, read', faithful⟩ := recover_some readsBack distinct result
            cases read.symm.trans read'
            exact absurd (faithful.sources unit mem) foreign
        | none =>
            cases parsed : parseResponseWithLimits platform.toUnitPlatform .general response
                documentId catalog maximumUnits maximumCharacters with
            | error failure => exact ⟨failure, .inr ⟨rfl, rfl⟩⟩
            | ok taken =>
                obtain ⟨raw', read', admissible, _⟩ :=
                  parseResponse_spec distinct (by decide) parsed
                cases read.symm.trans read'
                exact absurd (admissible.units unit mem).sources foreign

end Recovery

/-! ## An answer with a unit of each kind -/

def wholeSample : RawUnit := ⟨"Fees apply.", ["s2"]⟩

def cutSample : RawUnit := ⟨"Rent is payable. The men", ["s1"]⟩

def qualifiedSample : RawUnit := ⟨"Rent is payable. But all", ["s1", "s2"]⟩

/-- The answers that are written and read. -/
def sampleAnswers : List RawResponse :=
  [⟨[wholeSample, cutSample, qualifiedSample]⟩, ⟨[wholeSample]⟩,
    ⟨[{ cutSample with text := "X." }]⟩, ⟨[{ qualifiedSample with text := "X." }]⟩,
    ⟨[wholeSample, { cutSample with text := "Rent is payable." }]⟩]

def unitJson (unit : RawUnit) : String :=
  "\x7b\"text\":" ++ quote unit.text ++ ",\"source_ids\":[" ++
    String.intercalate "," (unit.sourceIds.map quote) ++ "]\x7d"

def answerJson (raw : RawResponse) : String :=
  "\x7b\"units\":[" ++ String.intercalate "," (raw.units.map unitJson) ++ "]\x7d"

def sampleRecoveryPlatform : RecoveryPlatform where
  toUnitPlatform := { sampleUnitPlatform with
    fromStr := fun text => sampleAnswers.find? fun raw => answerJson raw = text }
  toJson raw := if raw ∈ sampleAnswers then some (answerJson raw) else none

theorem sampleRecoveryPlatform_readsBack : AnswersReadBack sampleRecoveryPlatform := by
  intro raw json written
  have each : ∀ raw ∈ sampleAnswers,
      sampleAnswers.find? (fun other => answerJson other = answerJson raw) = some raw := by
    decide +kernel
  simp only [sampleRecoveryPlatform] at written
  split at written
  · next mem =>
      cases written
      exact each raw mem
  · cases written

theorem trimming_faithful_of_three :
    ∃ content raw outcomes,
      recover sampleRecoveryPlatform "document-1" sampleCatalog 3 24
        (answerJson ⟨[wholeSample, cutSample, qualifiedSample]⟩) = .ok (some content) ∧
      sampleRecoveryPlatform.fromStr (answerJson ⟨[wholeSample, cutSample, qualifiedSample]⟩) =
        some raw ∧
      Faithful sampleRecoveryPlatform sampleCatalog 24 raw.units outcomes content := by
  have recovered : ((recover sampleRecoveryPlatform "document-1" sampleCatalog 3 24
      (answerJson ⟨[wholeSample, cutSample, qualifiedSample]⟩)).toOption.join).isSome = true := by
    decide +kernel
  obtain ⟨content, found⟩ := Option.isSome_iff_exists.mp recovered
  have result : recover sampleRecoveryPlatform "document-1" sampleCatalog 3 24
      (answerJson ⟨[wholeSample, cutSample, qualifiedSample]⟩) = .ok (some content) := by
    cases shape : recover sampleRecoveryPlatform "document-1" sampleCatalog 3 24
        (answerJson ⟨[wholeSample, cutSample, qualifiedSample]⟩) with
    | error _ =>
        rw [shape] at found
        cases found
    | ok value =>
        rw [shape] at found
        exact congrArg _ found
  obtain ⟨raw, outcomes, read, faithful, _⟩ := (trimming_faithful sampleRecoveryPlatform
    sampleRecoveryPlatform_readsBack sampleCatalog_distinct
    (answerJson ⟨[wholeSample, cutSample, qualifiedSample]⟩) "document-1" 3 24).2.1 content result
  exact ⟨content, raw, outcomes, result, read, faithful⟩

end DocumentSummarizer.Coherent
