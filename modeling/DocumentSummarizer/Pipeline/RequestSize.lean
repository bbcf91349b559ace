import DocumentSummarizer.Pipeline.VerificationBatches
import Mathlib.Algebra.Order.BigOperators.Group.List

/-! # The size of a verification request

A claim takes no less room among other claims than it takes alone, as long as
it does not cite an evidence twice: its names are ordinals, and among other
claims the ordinals are not smaller.
-/

namespace DocumentSummarizer.Pipeline

open Library

/-! ## The rendered request -/

section Rendering

variable {kind : String} {names evidenceNames : List String} {stage : PipelineStage}
  {ids evidence : RequestIds} {claims : List PromptVerificationClaim}

/-- The ordinal of an id. -/
def nameOf (kind : String) (names : List String) (id : String) : String :=
  kind ++ toString (names.idxOf id + 1)

/-- The claim as the request shows it. -/
def PromptVerificationClaim.named (names evidenceNames : List String)
    (claim : PromptVerificationClaim) : PromptVerificationClaim :=
  { claim with
    claimId := nameOf "k" names claim.claimId
    evidence := claim.evidence.map fun item =>
      { item with evidenceId := nameOf "e" evidenceNames item.evidenceId } }

theorem RequestIds.new_isOk :
    (∃ ids, RequestIds.new kind names stage = .ok ids) ↔
      names ≠ [] ∧ (∀ id ∈ names, id ≠ "") ∧ names.Nodup := by
  unfold RequestIds.new
  split
  · next valid => exact ⟨fun _ => valid, fun _ => ⟨_, rfl⟩⟩
  · next invalid =>
      constructor
      · rintro ⟨_, h⟩
        cases h
      · exact fun valid => absurd valid invalid

theorem localOf_new (h : RequestIds.new kind names stage = .ok ids) {id : String}
    (mem : id ∈ names) : ids.localOf id = .ok (nameOf kind names id) := by
  obtain ⟨durable, locals, -⟩ := RequestIds.new_ok h
  have inside := List.idxOf_lt_length_of_mem mem
  rw [RequestIds.localOf_ok, durable, locals, rename_of_idxOf mem, ordinals,
    List.getElem?_map, List.getElem?_range inside]
  rfl

theorem localize_ok (h : RequestIds.new "k" names stage = .ok ids)
    (h' : RequestIds.new "e" evidenceNames stage = .ok evidence) {claim : PromptVerificationClaim}
    (mem : claim.claimId ∈ names)
    (cited : ∀ item ∈ claim.evidence, item.evidenceId ∈ evidenceNames) :
    claim.localize ids evidence = .ok (claim.named names evidenceNames) := by
  have items : claim.evidence.mapM (·.localize evidence) = .ok (claim.evidence.map fun item =>
      { item with evidenceId := nameOf "e" evidenceNames item.evidenceId }) := by
    rw [mapM_ok_iff, List.forall₂_map_right_iff, List.forall₂_same]
    intro item among
    rw [PromptVerificationEvidence.localize, localOf_new h' (cited item among)]
    rfl
  rw [PromptVerificationClaim.localize, localOf_new h mem]
  simp only [items, ok_bind rfl]
  rfl

theorem mem_citedEvidence {claim : PromptVerificationClaim} (mem : claim ∈ claims)
    {item : PromptVerificationEvidence} (among : item ∈ claim.evidence) :
    item.evidenceId ∈ citedEvidence claims := by
  rw [citedEvidence, List.mem_eraseDups, List.mem_flatMap]
  exact ⟨claim, mem, List.mem_map_of_mem among⟩

theorem requestPrompt_ok {userPrompt : String} :
    requestPrompt claims = .ok (userPrompt, ids) ↔
      RequestIds.new "k" (claims.map (·.claimId)) .verify = .ok ids ∧
        (∃ evidence, RequestIds.new "e" (citedEvidence claims) .verify = .ok evidence) ∧
        userPrompt = (⟨claims.map (·.named (claims.map (·.claimId)) (citedEvidence claims))⟩ :
          VerificationPrompt).toJson := by
  have wire : ∀ {ids evidence : RequestIds},
      RequestIds.new "k" (claims.map (·.claimId)) .verify = .ok ids →
      RequestIds.new "e" (citedEvidence claims) .verify = .ok evidence →
      claims.mapM (·.localize ids evidence) =
        .ok (claims.map (·.named (claims.map (·.claimId)) (citedEvidence claims))) := by
    intro ids evidence made cited
    rw [mapM_ok_iff, List.forall₂_map_right_iff, List.forall₂_same]
    intro claim mem
    exact localize_ok made cited (List.mem_map_of_mem mem) fun item => mem_citedEvidence mem
  simp only [requestPrompt, peel_ok, return_ok, Prod.mk.injEq]
  constructor
  · rintro ⟨ids, made, evidence, cited, claims', localized, rfl, rfl⟩
    rw [wire made cited] at localized
    cases localized
    exact ⟨made, ⟨evidence, cited⟩, rfl⟩
  · rintro ⟨made, ⟨evidence, cited⟩, rfl⟩
    exact ⟨ids, made, evidence, cited, _, wire made cited, rfl, rfl⟩

/-- Every claim has an id of its own and cites evidence that has an id. -/
structure Identified (claims : List PromptVerificationClaim) : Prop where
  named : ∀ claim ∈ claims, claim.claimId ≠ ""
  nodup : (claims.map (·.claimId)).Nodup
  cites : ∀ claim ∈ claims, claim.evidence ≠ []
  evidence : ∀ claim ∈ claims, ∀ item ∈ claim.evidence, item.evidenceId ≠ ""

theorem Identified.requestPrompt_ok {part : List PromptVerificationClaim} (h : Identified claims)
    (nonempty : part ≠ []) (inside : part.Sublist claims) :
    ∃ userPrompt ids, requestPrompt part = .ok (userPrompt, ids) := by
  obtain ⟨ids, made⟩ := (@RequestIds.new_isOk "k" (part.map (·.claimId)) .verify).mpr
    ⟨by simpa using nonempty, by
      intro id mem
      obtain ⟨claim, among, rfl⟩ := List.mem_map.mp mem
      exact h.named claim (inside.subset among), h.nodup.sublist (inside.map _)⟩
  obtain ⟨evidence, cited⟩ := (@RequestIds.new_isOk "e" (citedEvidence part) .verify).mpr
    ⟨by
      obtain ⟨claim, mem⟩ := List.exists_mem_of_ne_nil part nonempty
      obtain ⟨item, among⟩ := List.exists_mem_of_ne_nil _ (h.cites claim (inside.subset mem))
      exact List.ne_nil_of_mem (mem_citedEvidence mem among), by
      intro id mem
      rw [citedEvidence, List.mem_eraseDups, List.mem_flatMap] at mem
      obtain ⟨claim, mem, among⟩ := mem
      obtain ⟨item, cited, rfl⟩ := List.mem_map.mp among
      exact h.evidence claim (inside.subset mem) item cited, eraseDups_nodup _⟩
  exact ⟨_, ids, Pipeline.requestPrompt_ok.mpr ⟨made, ⟨evidence, cited⟩, rfl⟩⟩

end Rendering

/-! ## Sizes -/

section Sizes

variable {kind : String} {names evidenceNames : List String} {claims : List PromptVerificationClaim}
  {claim : PromptVerificationClaim}

/-- The room that an ordinal takes. -/
def ordinalLength (i : Nat) : Nat :=
  (toString (i + 1)).length

theorem ordinalLength_mono : Monotone ordinalLength := by
  intro i j le
  have positive : 0 < (Nat.repr (j + 1)).length := Nat.length_repr_pos
  have bound := (Nat.length_repr_le_iff positive).mp (Nat.le_refl (Nat.repr (j + 1)).length)
  exact (Nat.length_repr_le_iff positive).mpr (by omega)

theorem escapeText_length_of_plain {text : List Char}
    (plain : ∀ c ∈ text, escapeChar c = [c]) : (escapeText text).length = text.length := by
  induction text with
  | nil => rfl
  | cons c rest ih =>
      have later := ih fun other mem => plain other (List.mem_cons_of_mem _ mem)
      rw [escapeText, List.flatMap_cons, plain c List.mem_cons_self, List.length_append]
      rw [escapeText] at later
      rw [later, List.length_singleton, List.length_cons, Nat.add_comm]

theorem escapeChar_of_digit {c : Char} (digit : c.isDigit = true) : escapeChar c = [c] := by
  have range : 48 ≤ c.toNat ∧ c.toNat ≤ 57 := by
    simpa [Char.isDigit, UInt32.le_iff_toNat_le] using digit
  have long : shortEscapes.find? (·.2 = c) = none := by
    simp only [shortEscapes, List.find?_eq_none, List.mem_cons, List.not_mem_nil, or_false]
    rintro _ (rfl | rfl | rfl | rfl | rfl | rfl | rfl) <;>
      · simp only [decide_eq_true_eq]
        rintro rfl
        exact absurd range (by decide)
  rw [escapeChar, long]
  simp only
  rw [if_neg (by omega)]

/-- The name of an id takes the room of its ordinal. -/
theorem nameOf_length (letter : ∀ c ∈ kind.toList, escapeChar c = [c]) (id : String) :
    (quote (nameOf kind names id)).length = kind.length + ordinalLength (names.idxOf id) + 2 := by
  have plain : ∀ c ∈ (nameOf kind names id).toList, escapeChar c = [c] := by
    intro c mem
    rw [nameOf, String.toList_append] at mem
    rcases List.mem_append.mp mem with first | digit
    · exact letter c first
    · have digits : (toString (names.idxOf id + 1)).toList =
          Nat.toDigits 10 (names.idxOf id + 1) := Nat.toList_repr
      rw [digits] at digit
      exact escapeChar_of_digit (Nat.isDigit_of_mem_toDigits (by decide) (by decide) digit)
  rw [quote_length, escapeText_length_of_plain plain, String.length_toList, nameOf,
    String.length_append]
  rfl

theorem jsonArray_length (items : List String) :
    (jsonArray items).length = 2 + (items.map (·.length)).sum + (items.length - 1) := by
  have joined : (",".intercalate items).length =
      (items.map (·.length)).sum + (items.length - 1) := by
    induction items with
    | nil => rfl
    | cons item rest ih =>
        cases rest with
        | nil => simp
        | cons next more =>
            rw [String.intercalate_cons_cons, String.length_append, String.length_append, ih]
            simp only [List.map_cons, List.sum_cons, List.length_cons]
            have comma : ",".length = 1 := rfl
            omega
  rw [jsonArray, String.length_append, String.length_append, joined]
  have bracket : "[".length = 1 := rfl
  have closing : "]".length = 1 := rfl
  omega

/-- The claim without its ids and those of its evidence. -/
def PromptVerificationClaim.blank (claim : PromptVerificationClaim) : PromptVerificationClaim :=
  { claim with
    claimId := ""
    evidence := claim.evidence.map fun item => { item with evidenceId := "" } }

/-- The room of a claim's names in a request. -/
def PromptVerificationClaim.nameSize (names evidenceNames : List String)
    (claim : PromptVerificationClaim) : Nat :=
  ordinalLength (names.idxOf claim.claimId) +
    (claim.evidence.map fun item => ordinalLength (evidenceNames.idxOf item.evidenceId)).sum

theorem quote_empty : (quote "").length = 2 :=
  rfl

theorem quote_nameOf_k (id : String) :
    (quote (nameOf "k" names id)).length = ordinalLength (names.idxOf id) + 3 := by
  have letter : ∀ c ∈ "k".toList, escapeChar c = [c] :=
    List.forall_mem_singleton.mpr rfl
  have one : "k".length = 1 := rfl
  rw [nameOf_length letter, one]
  omega

theorem quote_nameOf_e (id : String) :
    (quote (nameOf "e" names id)).length = ordinalLength (names.idxOf id) + 3 := by
  have letter : ∀ c ∈ "e".toList, escapeChar c = [c] :=
    List.forall_mem_singleton.mpr rfl
  have one : "e".length = 1 := rfl
  rw [nameOf_length letter, one]
  omega

theorem evidence_length (item : PromptVerificationEvidence) :
    ({ item with evidenceId := nameOf "e" names item.evidenceId } :
        PromptVerificationEvidence).toJson.length =
      ({ item with evidenceId := "" } : PromptVerificationEvidence).toJson.length +
        (ordinalLength (names.idxOf item.evidenceId) + 1) := by
  have longer : ∀ a x b y c : String, x.length =
      (quote "").length + (ordinalLength (names.idxOf item.evidenceId) + 1) →
      (a ++ x ++ b ++ y ++ c).length = (a ++ quote "" ++ b ++ y ++ c).length +
        (ordinalLength (names.idxOf item.evidenceId) + 1) := by
    intro a x b y c h
    simp only [String.length_append, h]
    omega
  apply longer
  rw [quote_nameOf_e, quote_empty]
  omega

theorem evidenceArray_length (items : List PromptVerificationEvidence) :
    (jsonArray ((items.map fun item =>
        { item with evidenceId := nameOf "e" names item.evidenceId }).map (·.toJson))).length =
      (jsonArray ((items.map fun item => { item with evidenceId := "" }).map (·.toJson))).length +
        (items.length +
          (items.map fun item => ordinalLength (names.idxOf item.evidenceId)).sum) := by
  have sums : ((items.map fun item =>
        ({ item with evidenceId := nameOf "e" names item.evidenceId } :
          PromptVerificationEvidence)).map (·.toJson.length)).sum =
      ((items.map fun item => ({ item with evidenceId := "" } :
        PromptVerificationEvidence)).map (·.toJson.length)).sum +
        (items.length +
          (items.map fun item => ordinalLength (names.idxOf item.evidenceId)).sum) := by
    induction items with
    | nil => rfl
    | cons item rest ih =>
        simp only [List.map_cons, List.sum_cons, List.length_cons, evidence_length]
        rw [ih]
        omega
  rw [jsonArray_length, jsonArray_length]
  simp only [List.map_map, List.length_map, Function.comp_def] at sums ⊢
  omega

theorem named_length : (claim.named names evidenceNames).toJson.length =
    claim.blank.toJson.length +
      (claim.evidence.length + 1 + claim.nameSize names evidenceNames) := by
  have longer : ∀ a x b t f c y z d : String, ∀ n : Nat,
      x.length = (quote "").length + (ordinalLength (names.idxOf claim.claimId) + 1) →
      y.length = z.length + n →
      (a ++ x ++ b ++ t ++ f ++ c ++ y ++ d).length =
        (a ++ quote "" ++ b ++ t ++ f ++ c ++ z ++ d).length +
          (ordinalLength (names.idxOf claim.claimId) + 1 + n) := by
    intro a x b t f c y z d n h h'
    simp only [String.length_append, h, h']
    omega
  have sizes : claim.evidence.length + 1 + claim.nameSize names evidenceNames =
      ordinalLength (names.idxOf claim.claimId) + 1 + (claim.evidence.length +
        (claim.evidence.map fun item =>
          ordinalLength (evidenceNames.idxOf item.evidenceId)).sum) := by
    rw [PromptVerificationClaim.nameSize]
    omega
  rw [sizes]
  apply longer
  · rw [PromptVerificationClaim.named, quote_nameOf_k, quote_empty]
    omega
  · exact evidenceArray_length claim.evidence

/-- A claim that cites no evidence twice has no longer names alone than among other claims. -/
theorem nameSize_alone (names : List String)
    (distinct : (claim.evidence.map (·.evidenceId)).Nodup)
    (cited : ∀ item ∈ claim.evidence, item.evidenceId ∈ evidenceNames) :
    claim.nameSize [claim.claimId] (citedEvidence [claim]) ≤
      claim.nameSize names evidenceNames := by
  have alone : citedEvidence [claim] = claim.evidence.map (·.evidenceId) := by
    rw [citedEvidence, List.flatMap_singleton, eraseDups_eq_self distinct]
  have first : ordinalLength ([claim.claimId].idxOf claim.claimId) ≤
      ordinalLength (names.idxOf claim.claimId) := by
    apply ordinalLength_mono
    simp
  have positions : ∀ ids : List String, ids.Nodup → ids.map ids.idxOf = List.range ids.length := by
    intro ids nodup
    apply List.ext_getElem (by simp)
    intro i inside _
    simp only [List.length_map] at inside
    simp [nodup.idxOf_getElem i inside]
  have elsewhere : ((claim.evidence.map (·.evidenceId)).map evidenceNames.idxOf).Nodup := by
    refine distinct.map_on fun x xMem y yMem same => ?_
    obtain ⟨item, among, rfl⟩ := List.mem_map.mp xMem
    exact (List.idxOf_inj (cited item among)).mp same
  have sums := sum_range_le_sum ordinalLength_mono elsewhere
  rw [List.length_map, ← positions _ distinct] at sums
  simp only [List.map_map, Function.comp_def] at sums
  rw [PromptVerificationClaim.nameSize, PromptVerificationClaim.nameSize, alone]
  omega

/-- What a claim cites first is named the same whatever claims follow. -/
theorem nameSize_first (more : List PromptVerificationClaim) :
    claim.nameSize ((claim :: more).map (·.claimId)) (citedEvidence (claim :: more)) =
      claim.nameSize [claim.claimId] (citedEvidence [claim]) := by
  have same : ∀ item ∈ claim.evidence,
      (citedEvidence (claim :: more)).idxOf item.evidenceId =
        (citedEvidence [claim]).idxOf item.evidenceId := by
    intro item among
    rw [citedEvidence, citedEvidence, List.flatMap_cons, List.flatMap_singleton]
    exact idxOf_eraseDups_append (List.mem_map_of_mem among)
  have items : claim.evidence.map (fun item =>
        ordinalLength ((citedEvidence (claim :: more)).idxOf item.evidenceId)) =
      claim.evidence.map fun item =>
        ordinalLength ((citedEvidence [claim]).idxOf item.evidenceId) :=
    List.map_congr_left fun item among => congrArg ordinalLength (same item among)
  rw [PromptVerificationClaim.nameSize, PromptVerificationClaim.nameSize, items]
  simp

theorem promptJson_length (wire : List PromptVerificationClaim) :
    (⟨wire⟩ : VerificationPrompt).toJson.length =
      (jsonArray (wire.map (·.toJson))).length + 11 := by
  have whole : ∀ a x b : String, (a ++ x ++ b).length = x.length + (a.length + b.length) := by
    intro a x b
    simp only [String.length_append]
    omega
  exact whole _ _ _

theorem verificationSystemPrompt_length_le (mem : claim ∈ claims) :
    (verificationSystemPrompt [claim]).length ≤ (verificationSystemPrompt claims).length := by
  unfold verificationSystemPrompt
  by_cases framed : claim.sourceFraming.isSome = true
  · have some : claims.any (·.sourceFraming.isSome) = true :=
      List.any_eq_true.mpr ⟨claim, mem, framed⟩
    simp [framed, some]
  · have none : [claim].any (·.sourceFraming.isSome) = false := by simpa using framed
    rw [none, if_neg Bool.false_ne_true]
    split
    · rw [String.length_append]
      exact Nat.le_add_right _ _
    · exact Nat.le_refl _

/-- The room that a claim takes in a request. -/
def PromptVerificationClaim.wireSize (names evidenceNames : List String)
    (claim : PromptVerificationClaim) : Nat :=
  claim.blank.toJson.length + (claim.evidence.length + 1 + claim.nameSize names evidenceNames)

/-- The size of a request: its instructions, its brackets and commas, and its claims. -/
theorem modelFacingCharacters_eq {userPrompt : String} {ids : RequestIds}
    (h : requestPrompt claims = .ok (userPrompt, ids)) :
    modelFacingCharacters claims userPrompt = (verificationSystemPrompt claims).length +
      ((claims.map (·.wireSize (claims.map (·.claimId)) (citedEvidence claims))).sum +
        (claims.length - 1) + 13) := by
  obtain ⟨-, -, rfl⟩ := requestPrompt_ok.mp h
  have sizes : ∀ names evidenceNames : List String,
      ((claims.map (·.named names evidenceNames)).map (·.toJson)).map (·.length) =
        claims.map (·.wireSize names evidenceNames) := by
    intro names evidenceNames
    simp only [List.map_map, Function.comp_def, named_length, PromptVerificationClaim.wireSize]
  rw [modelFacingCharacters, promptJson_length, jsonArray_length, sizes, List.length_map,
    List.length_map]
  omega

/-- A claim whose names are no longer alone makes no longer request alone. -/
theorem modelFacingCharacters_alone {userPrompt aloneUserPrompt : String}
    {ids aloneIds : RequestIds}
    (h : requestPrompt claims = .ok (userPrompt, ids))
    (alone : requestPrompt [claim] = .ok (aloneUserPrompt, aloneIds)) (mem : claim ∈ claims)
    (shorter : claim.nameSize [claim.claimId] (citedEvidence [claim]) ≤
      claim.nameSize (claims.map (·.claimId)) (citedEvidence claims)) :
    modelFacingCharacters [claim] aloneUserPrompt ≤ modelFacingCharacters claims userPrompt := by
  have system := verificationSystemPrompt_length_le mem
  have among : claim.wireSize (claims.map (·.claimId)) (citedEvidence claims) ≤
      (claims.map (·.wireSize (claims.map (·.claimId)) (citedEvidence claims))).sum :=
    List.le_sum_of_mem (List.mem_map.mpr ⟨claim, mem, rfl⟩)
  have wire : claim.wireSize [claim.claimId] (citedEvidence [claim]) ≤
      claim.wireSize (claims.map (·.claimId)) (citedEvidence claims) := by
    rw [PromptVerificationClaim.wireSize, PromptVerificationClaim.wireSize]
    exact Nat.add_le_add_left (Nat.add_le_add_left shorter _) _
  have add : ∀ {a a' b b' n : Nat}, a ≤ a' → b ≤ b' → a + (b + 0 + 13) ≤ a' + (b' + n + 13) := by
    omega
  rw [modelFacingCharacters_eq h, modelFacingCharacters_eq alone, List.map_singleton,
    List.sum_singleton, List.map_singleton, List.length_singleton]
  exact add system (Nat.le_trans wire among)

/-- A claim takes more room alone than behind another one whose names shorten its own enough. -/
theorem modelFacingCharacters_pair_lt {first second : PromptVerificationClaim}
    {together alone : String} {ids ownIds : RequestIds}
    (h : requestPrompt [first, second] = .ok (together, ids))
    (h' : requestPrompt [second] = .ok (alone, ownIds))
    (system : verificationSystemPrompt [first, second] = verificationSystemPrompt [second])
    (shorter : first.blank.toJson.length + (first.evidence.length + 2 +
        first.nameSize [first.claimId, second.claimId] (citedEvidence [first, second]) +
        second.nameSize [first.claimId, second.claimId] (citedEvidence [first, second])) <
      second.nameSize [second.claimId] (citedEvidence [second])) :
    modelFacingCharacters [first, second] together < modelFacingCharacters [second] alone := by
  have arrange : ∀ {a b e k x y z base : Nat}, a + (e + 2 + x + y) < z →
      base + ((a + (e + 1 + x)) + (b + (k + 1 + y)) + (0 + 1 + 1 - 1) + 13) <
        base + ((b + (k + 1 + z)) + (0 + 1 - 1) + 13) := by omega
  have left := modelFacingCharacters_eq h
  have right := modelFacingCharacters_eq h'
  simp only [List.map_cons, List.map_nil, List.sum_cons, List.sum_nil, List.length_cons,
    List.length_nil, Nat.add_zero, PromptVerificationClaim.wireSize, system] at left right
  rw [left, right]
  exact arrange shorter

end Sizes

end DocumentSummarizer.Pipeline
