import DocumentSummarizer.Pipeline.VerificationBatches
import Mathlib.Data.List.Perm.Subperm

/-! # What a verification response says

A response is accepted when its verdicts are about exactly the names of the
request, and then it says one verdict of every claim.
-/

namespace DocumentSummarizer.Pipeline

open Library

/-- The verdicts of a batch, as `classify_claim_support` reads them from a response. -/
def batchVerdicts (fromStr : String → Option RawVerificationResponse) (batch : VerificationBatch)
    (text : String) : Except PipelineFailure (List ClaimVerification) := do
  let restored ← batch.identifiers.verdictResponse fromStr text
  parseVerificationResponse fromStr restored batch.claims

/-- The verification of a claim is what the response says under the claim's name. -/
structure Answers (ids : RequestIds) (response : RawVerificationResponse) (claim : CitedClaim)
    (verification : ClaimVerification) : Prop where
  claimId : verification.claimId = claim.claimId
  evidenceIds : verification.evidenceIds = claim.evidenceIds
  verdict : ∃ name, ids.localOf claim.claimId = .ok name ∧
    ⟨name, verification.verdict⟩ ∈ response.verdicts

/-! ## Restored verdicts -/

section Restoring

variable {ids : RequestIds} {raws restored : List RawClaimVerdict}

/-- A verdict under a request's name, and the same verdict under the durable id. -/
def Restored (ids : RequestIds) (raw restored : RawClaimVerdict) : Prop :=
  rename ids.locals ids.durable raw.claimId = some restored.claimId ∧
    restored.verdict = raw.verdict

theorem RawClaimVerdict.restore_ok {raw restored : RawClaimVerdict} :
    raw.restore ids = .ok restored ↔ Restored ids raw restored := by
  simp only [RawClaimVerdict.restore, peel_ok, return_ok, RequestIds.restore_ok, Restored]
  constructor
  · rintro ⟨durable, named, rfl⟩
    exact ⟨named, rfl⟩
  · rintro ⟨named, same⟩
    refine ⟨_, named, ?_⟩
    cases restored
    simp only at same
    rw [same]

theorem restored_claimIds (each : List.Forall₂ (Restored ids) raws restored) :
    List.Forall₂ (fun x y => rename ids.locals ids.durable x = some y)
      (raws.map (·.claimId)) (restored.map (·.claimId)) := by
  rw [List.forall₂_map_left_iff, List.forall₂_map_right_iff]
  exact each.imp fun _ _ h => h.1

/-- The restored verdicts are about every durable id once exactly when the raw ones are about
every name once. -/
theorem restored_perm_iff (each : List.Forall₂ (Restored ids) raws restored) :
    (restored.map (·.claimId)).Perm ids.durable ↔
      (raws.map (·.claimId)).Perm ids.vocabulary := by
  have renamed := restored_claimIds each
  constructor
  · exact perm_of_forall₂_rename ids.aligned ids.locals_nodup ids.durable_nodup renamed
  · apply perm_of_forall₂_rename ids.aligned.symm ids.durable_nodup ids.locals_nodup
    exact renamed.flip.imp fun _ _ h => (rename_comm ids.locals_nodup ids.durable_nodup).mp h

theorem mem_restored_iff (each : List.Forall₂ (Restored ids) raws restored) {durable : String}
    {verdict : ClaimVerdict} :
    ⟨durable, verdict⟩ ∈ restored ↔
      ∃ name, rename ids.locals ids.durable name = some durable ∧ ⟨name, verdict⟩ ∈ raws := by
  induction each with
  | nil => simp
  | @cons raw first raws restored here _ ih =>
      rw [List.mem_cons, ih]
      constructor
      · rintro (rfl | ⟨name, named, mem⟩)
        · have same : (⟨raw.claimId, verdict⟩ : RawClaimVerdict) = raw :=
            congrArg (RawClaimVerdict.mk raw.claimId) here.2
          exact ⟨raw.claimId, here.1, same ▸ List.mem_cons_self⟩
        · exact ⟨name, named, List.mem_cons_of_mem _ mem⟩
      · rintro ⟨name, named, mem⟩
        rcases List.mem_cons.mp mem with rfl | later
        · left
          obtain ⟨same, stands⟩ := here
          cases first
          simp only at same stands
          rw [named] at same
          rw [Option.some.inj same, stands]
        · exact .inr ⟨name, named, later⟩

theorem restored_of_subset (known : ∀ raw ∈ raws, raw.claimId ∈ ids.vocabulary) :
    ∃ restored, List.Forall₂ (Restored ids) raws restored := by
  refine exists_forall₂_iff.mpr fun raw mem => ?_
  obtain ⟨durable, named⟩ := rename_of_mem ids.aligned (known raw mem)
  exact ⟨⟨durable, raw.verdict⟩, named, rfl⟩

end Restoring

/-! ## The verdicts by claim -/

section Collecting

variable {known : List String} {seen verdicts : List (String × ClaimVerdict)}
  {raws : List RawClaimVerdict} {claims : List CitedClaim}

/-- The entry of the map for a verdict. -/
def RawClaimVerdict.entry (raw : RawClaimVerdict) : String × ClaimVerdict :=
  (raw.claimId, raw.verdict)

theorem lookup_isSome_iff {key : String} :
    (verdicts.lookup key).isSome ↔ key ∈ verdicts.map (·.1) := by
  induction verdicts with
  | nil => simp
  | cons entry rest ih =>
      by_cases same : key = entry.1
      · simp [same]
      · simp [same]

theorem insertVerdicts_ok (distinct : (seen.map (·.1)).Nodup) :
    insertVerdicts known seen raws = .ok verdicts ↔
      (∀ raw ∈ raws, raw.claimId ∈ known) ∧
        ((seen ++ raws.map (·.entry)).map (·.1)).Nodup ∧
        verdicts = seen ++ raws.map (·.entry) := by
  induction raws generalizing seen with
  | nil => simp [insertVerdicts, distinct, eq_comm]
  | cons raw rest ih =>
      simp only [insertVerdicts, peel_ok, refuseIf_eq_ok, lookup_isSome_iff, not_or, not_not]
      constructor
      · rintro ⟨-, ⟨mem, fresh⟩, inserted⟩
        have longer : ((seen ++ [raw.entry]).map (·.1)).Nodup := by
          simp only [List.map_append, List.map_cons, List.map_nil]
          exact List.nodup_append'.mpr ⟨distinct, List.nodup_singleton _,
            by simpa [RawClaimVerdict.entry] using fresh⟩
        obtain ⟨others, nodup, rfl⟩ := (ih longer).mp inserted
        refine ⟨List.forall_mem_cons.mpr ⟨mem, others⟩, ?_, ?_⟩
        · simpa using nodup
        · simp [RawClaimVerdict.entry]
      · rintro ⟨mem, nodup, rfl⟩
        have whole : seen ++ (raw :: rest).map (·.entry) =
            (seen ++ [raw.entry]) ++ rest.map (·.entry) := by simp
        rw [whole] at nodup
        have longer : ((seen ++ [raw.entry]).map (·.1)).Nodup := by
          rw [List.map_append] at nodup
          exact (List.nodup_append'.mp nodup).1
        have fresh : raw.claimId ∉ seen.map (·.1) := by
          rw [List.map_append] at longer
          intro again
          exact (List.nodup_append'.mp longer).2.2 again (by simp [RawClaimVerdict.entry])
        refine ⟨⟨⟩, ⟨(List.forall_mem_cons.mp mem).1, fresh⟩, (ih longer).mpr ⟨?_, nodup, whole⟩⟩
        exact (List.forall_mem_cons.mp mem).2

theorem insertVerdicts_nil_ok :
    insertVerdicts known [] raws = .ok verdicts ↔
      (∀ raw ∈ raws, raw.claimId ∈ known) ∧ (raws.map (·.claimId)).Nodup ∧
        verdicts = raws.map (·.entry) := by
  have entries : (raws.map (·.entry)).map (·.1) = raws.map (·.claimId) := by
    rw [List.map_map]
    rfl
  rw [insertVerdicts_ok (by simp), List.nil_append, entries]

theorem lookup_filter_ne {key other : String} (different : other ≠ key) :
    (verdicts.filter (·.1 ≠ key)).lookup other = verdicts.lookup other := by
  induction verdicts with
  | nil => rfl
  | cons entry rest ih =>
      by_cases same : entry.1 = key
      · have apart : (other == entry.1) = false := by simpa [same] using different
        rw [List.filter_cons_of_neg (by simp [same]), ih, List.lookup_cons, apart]
      · rw [List.filter_cons_of_pos (by simp [same]), List.lookup_cons, List.lookup_cons, ih]

/-- The verification of a claim is the verdict the map has for it. -/
structure Taken (verdicts : List (String × ClaimVerdict)) (claim : CitedClaim)
    (verification : ClaimVerification) : Prop where
  claimId : verification.claimId = claim.claimId
  evidenceIds : verification.evidenceIds = claim.evidenceIds
  verdict : verdicts.lookup claim.claimId = some verification.verdict

theorem taken_iff {claim : CitedClaim} {verification : ClaimVerification} :
    Taken verdicts claim verification ↔ ∃ verdict, verdicts.lookup claim.claimId = some verdict ∧
      verification = ⟨claim.claimId, claim.evidenceIds, verdict⟩ := by
  constructor
  · intro h
    refine ⟨verification.verdict, h.verdict, ?_⟩
    rw [← h.claimId, ← h.evidenceIds]
  · rintro ⟨verdict, found, rfl⟩
    exact ⟨rfl, rfl, found⟩

/-- What is taken for the other claims does not change when a claim's entry is removed. -/
theorem taken_filter {key : String} {verifications : List ClaimVerification}
    (different : ∀ claim ∈ claims, claim.claimId ≠ key) :
    List.Forall₂ (Taken (verdicts.filter (·.1 ≠ key))) claims verifications ↔
      List.Forall₂ (Taken verdicts) claims verifications := by
  constructor
  · intro each
    refine ((List.forall₂_and_left _ _).mpr ⟨different, each⟩).imp fun claim verification h => ?_
    exact ⟨h.2.claimId, h.2.evidenceIds, (lookup_filter_ne h.1).symm.trans h.2.verdict⟩
  · intro each
    refine ((List.forall₂_and_left _ _).mpr ⟨different, each⟩).imp fun claim verification h => ?_
    exact ⟨h.2.claimId, h.2.evidenceIds, (lookup_filter_ne h.1).trans h.2.verdict⟩

theorem removeVerdicts_ok {verifications : List ClaimVerification}
    (distinct : (claims.map (·.claimId)).Nodup) :
    removeVerdicts verdicts claims = .ok verifications ↔
      List.Forall₂ (Taken verdicts) claims verifications := by
  induction claims generalizing verdicts verifications with
  | nil => simp [removeVerdicts, eq_comm]
  | cons claim rest ih =>
      obtain ⟨fresh, distinct⟩ := List.nodup_cons.mp distinct
      have different : ∀ other ∈ rest, other.claimId ≠ claim.claimId := by
        intro other mem same
        exact fresh (List.mem_map.mpr ⟨other, mem, same⟩)
      simp only [removeVerdicts, peel_ok, return_ok, okOrElse_eq_ok, List.forall₂_cons_left_iff,
        ih distinct, taken_filter different, taken_iff]
      constructor
      · rintro ⟨verdict, found, later, taken, rfl⟩
        exact ⟨_, later, ⟨verdict, found, rfl⟩, taken, rfl⟩
      · rintro ⟨_, later, ⟨verdict, found, rfl⟩, taken, rfl⟩
        exact ⟨verdict, found, later, taken, rfl⟩

theorem lookup_entry {raw : RawClaimVerdict} (distinct : (raws.map (·.claimId)).Nodup) :
    (raws.map (·.entry)).lookup raw.claimId = some raw.verdict ↔ raw ∈ raws := by
  induction raws with
  | nil => simp
  | cons first rest ih =>
      obtain ⟨fresh, distinct⟩ := List.nodup_cons.mp distinct
      rw [List.map_cons, List.lookup_cons]
      by_cases same : raw.claimId = first.claimId
      · have later : raw ∉ rest := fun mem =>
          fresh (List.mem_map.mpr ⟨raw, mem, same⟩)
        have here : raw = first ↔ first.verdict = raw.verdict := by
          cases raw
          cases first
          simp_all [eq_comm]
        simp [RawClaimVerdict.entry, same, later, here]
      · have apart : raw ≠ first := fun equal => same (equal ▸ rfl)
        have other : (raw.claimId == first.entry.1) = false := by
          simpa [RawClaimVerdict.entry] using same
        rw [other, List.mem_cons]
        simp only [apart, false_or]
        exact ih distinct

end Collecting

section Accepting

variable {fromStr : String → Option RawVerificationResponse} {response : RawVerificationResponse}
  {claims : List CitedClaim} {verifications : List ClaimVerification}

theorem perm_of_insert {known : List String} {raws : List RawClaimVerdict}
    (length : raws.length = known.length) (mem : ∀ raw ∈ raws, raw.claimId ∈ known)
    (distinct : (raws.map (·.claimId)).Nodup) : (raws.map (·.claimId)).Perm known := by
  have inside : raws.map (·.claimId) ⊆ known := by
    intro id named
    obtain ⟨raw, among, rfl⟩ := List.mem_map.mp named
    exact mem raw among
  apply (List.subperm_of_subset distinct inside).perm_of_length_le
  rw [List.length_map, length]

theorem parseVerificationResponse_ok (readsBack : ReadsBack fromStr)
    (distinct : (claims.map (·.claimId)).Nodup) (some : claims ≠ [])
    (few : claims.length ≤ maxVerificationClaimsPerRequest) :
    parseVerificationResponse fromStr response.toJson claims = .ok verifications ↔
      (response.verdicts.map (·.claimId)).Perm (claims.map (·.claimId)) ∧
        List.Forall₂ (Taken (response.verdicts.map (·.entry))) claims verifications := by
  simp only [parseVerificationResponse, readsBack response, okOrElse_some, peel_ok,
    Except.ok.injEq, exists_eq_left', refuseIf_eq_ok, exists_const, removeVerdicts_ok distinct,
    insertVerdicts_nil_ok, not_or, not_not, ne_eq]
  constructor
  · rintro ⟨⟨length, -, -⟩, _, ⟨known, nodup, rfl⟩, taken⟩
    exact ⟨perm_of_insert (by simpa using length) known nodup, taken⟩
  · rintro ⟨perm, taken⟩
    have length : response.verdicts.length = claims.length := by simpa using perm.length_eq
    refine ⟨⟨length, ?_, Nat.not_lt.mpr (length ▸ few)⟩, _,
      ⟨?_, perm.nodup_iff.mpr distinct, rfl⟩, taken⟩
    · intro none
      exact some (List.length_eq_zero_iff.mp (by rw [← length, none, List.length_nil]))
    · intro raw mem
      exact perm.mem_iff.mp (List.mem_map_of_mem mem)

theorem requestPrompt_durable {promptClaims : List PromptVerificationClaim} {userPrompt : String}
    {ids : RequestIds} (h : requestPrompt promptClaims = .ok (userPrompt, ids)) :
    ids.durable = promptClaims.map (·.claimId) := by
  simp only [requestPrompt, peel_ok, return_ok, Prod.mk.injEq] at h
  obtain ⟨ids, made, _, -, _, -, -, rfl⟩ := h
  exact (RequestIds.new_ok made).1

theorem taken_restored_iff {ids : RequestIds} {raws restored : List RawClaimVerdict}
    (each : List.Forall₂ (Restored ids) raws restored)
    (distinct : (restored.map (·.claimId)).Nodup) {claim : CitedClaim}
    {verification : ClaimVerification} :
    Taken (restored.map (·.entry)) claim verification ↔ Answers ids ⟨raws⟩ claim verification := by
  have found := @lookup_entry restored ⟨claim.claimId, verification.verdict⟩ distinct
  have under : (∃ name, ids.localOf claim.claimId = .ok name ∧
      (⟨name, verification.verdict⟩ : RawClaimVerdict) ∈ raws) ↔
      ⟨claim.claimId, verification.verdict⟩ ∈ restored := by
    rw [mem_restored_iff each]
    apply exists_congr
    intro name
    rw [← RequestIds.restore_iff_localOf, RequestIds.restore_ok]
  constructor
  · intro h
    exact ⟨h.claimId, h.evidenceIds, under.mpr (found.mp h.verdict)⟩
  · intro h
    exact ⟨h.claimId, h.evidenceIds, found.mpr (under.mp h.verdict)⟩

/-- Restoring and parsing a response accepts exactly a verdict for every name of the request. -/
theorem batchVerdicts_ok (readsBack : ReadsBack fromStr) {batch : VerificationBatch}
    (catalog : batch.identifiers.durable = batch.claims.map (·.claimId)) (some : batch.claims ≠ [])
    (few : batch.claims.length ≤ maxVerificationClaimsPerRequest) {text : String} :
    batchVerdicts fromStr batch text = .ok verifications ↔
      ∃ response, fromStr text = .some response ∧
        (response.verdicts.map (·.claimId)).Perm batch.identifiers.vocabulary ∧
        List.Forall₂ (Answers batch.identifiers response) batch.claims verifications := by
  have distinct : (batch.claims.map (·.claimId)).Nodup := catalog ▸ batch.identifiers.durable_nodup
  simp only [batchVerdicts, RequestIds.verdictResponse, peel_ok, okOrElse_eq_ok, return_ok,
    mapM_ok_iff, RawClaimVerdict.restore_ok]
  constructor
  · rintro ⟨_, ⟨response, read, restored, each, rfl⟩, parsed⟩
    obtain ⟨perm, taken⟩ := (parseVerificationResponse_ok readsBack distinct some few).mp parsed
    refine ⟨response, read, (restored_perm_iff each).mp (catalog ▸ perm), ?_⟩
    exact taken.imp fun _ _ => (taken_restored_iff each (perm.nodup_iff.mpr distinct)).mp
  · rintro ⟨response, read, perm, answers⟩
    obtain ⟨restored, each⟩ := @restored_of_subset batch.identifiers response.verdicts
      fun raw mem => perm.mem_iff.mp (List.mem_map_of_mem mem)
    refine ⟨_, ⟨response, read, restored, each, rfl⟩, ?_⟩
    have whole := catalog ▸ (restored_perm_iff each).mpr perm
    refine (parseVerificationResponse_ok readsBack distinct some few).mpr ⟨whole, ?_⟩
    exact answers.imp fun _ _ => (taken_restored_iff each (whole.nodup_iff.mpr distinct)).mpr

theorem answers_of_perm {ids : RequestIds} (catalog : ids.durable = claims.map (·.claimId))
    (perm : (response.verdicts.map (·.claimId)).Perm ids.vocabulary) :
    ∃ verifications, List.Forall₂ (Answers ids response) claims verifications := by
  refine exists_forall₂_iff.mpr fun claim mem => ?_
  obtain ⟨name, among, named⟩ :=
    ids.localOf_mem (catalog ▸ List.mem_map_of_mem mem : claim.claimId ∈ ids.durable)
  obtain ⟨raw, answered, rfl⟩ := List.mem_map.mp (perm.mem_iff.mpr among)
  exact ⟨⟨claim.claimId, claim.evidenceIds, raw.verdict⟩, rfl, rfl, raw.claimId, named, answered⟩

end Accepting

/-! ## Round trips -/

/-- Every durable id has a name of its own that is restored to it. -/
structure NamesRoundTrip (ids : RequestIds) : Prop where
  restored : ∀ durable ∈ ids.durable, ∃ name ∈ ids.vocabulary,
    ids.localOf durable = .ok name ∧ ids.restore name = .ok durable
  injective : ∀ durable durable' name, ids.localOf durable = .ok name →
    ids.localOf durable' = .ok name → durable = durable'

theorem names_round_trip (ids : RequestIds) : NamesRoundTrip ids where
  restored := by
    intro durable mem
    obtain ⟨name, among, named⟩ := ids.localOf_mem mem
    exact ⟨name, among, named, RequestIds.restore_iff_localOf.mpr named⟩
  injective := fun _ _ _ => RequestIds.localOf_injective

/-- A response is accepted when its verdicts are about every name of the batch once, and then
there is one verification of every claim, in the order of the claims. -/
structure RestoresVerdicts (fromStr : String → Option RawVerificationResponse)
    (batch : VerificationBatch) : Prop where
  accepted : ∀ text, (∃ verifications, batchVerdicts fromStr batch text = .ok verifications) ↔
    ∃ response, fromStr text = some response ∧
      (response.verdicts.map (·.claimId)).Perm batch.identifiers.vocabulary
  answers : ∀ text response verifications, fromStr text = some response →
    batchVerdicts fromStr batch text = .ok verifications →
      List.Forall₂ (Answers batch.identifiers response) batch.claims verifications

/-- The names of a request round-trip, and so do the verdicts given under them. -/
theorem verdicts_round_trip {fromStr : String → Option RawVerificationResponse}
    (readsBack : ReadsBack fromStr) {promptClaims : List PromptVerificationClaim}
    {claims : List CitedClaim} {limit : Nat} {batch : VerificationBatch}
    (catalog : promptClaims.map (·.claimId) = claims.map (·.claimId))
    (h : materializeVerificationBatch promptClaims claims limit = .ok batch) :
    batch.claims = claims ∧ batch.identifiers.durable = claims.map (·.claimId) ∧
      RestoresVerdicts fromStr batch ∧ NamesRoundTrip batch.identifiers ∧
      ∀ evidence, RequestIds.new "e" (citedEvidence promptClaims) .verify = .ok evidence →
        evidence.durable = citedEvidence promptClaims ∧ NamesRoundTrip evidence := by
  obtain ⟨userPrompt, ids, rendered, bounded, rfl⟩ := materializeVerificationBatch_ok.mp h
  have durable : ids.durable = claims.map (·.claimId) :=
    (requestPrompt_durable rendered).trans catalog
  have some : claims ≠ [] := List.ne_nil_of_length_pos bounded.1.1
  have verdicts := fun text verifications =>
    @batchVerdicts_ok fromStr verifications readsBack
      ⟨verificationSystemPrompt promptClaims, userPrompt, claims, ids⟩ durable some bounded.1.2 text
  refine ⟨rfl, durable, ⟨?_, ?_⟩, names_round_trip ids, ?_⟩
  · intro text
    constructor
    · rintro ⟨verifications, accepted⟩
      obtain ⟨response, read, perm, -⟩ := (verdicts text verifications).mp accepted
      exact ⟨response, read, perm⟩
    · rintro ⟨response, read, perm⟩
      obtain ⟨verifications, answers⟩ := answers_of_perm durable perm
      exact ⟨verifications, (verdicts text verifications).mpr ⟨response, read, perm, answers⟩⟩
  · intro text response verifications read accepted
    obtain ⟨response', read', -, answers⟩ := (verdicts text verifications).mp accepted
    rw [read] at read'
    exact Option.some.inj read' ▸ answers
  · intro evidence made
    exact ⟨(RequestIds.new_ok made).1, names_round_trip evidence⟩

/-! ## A reader of compact texts -/

section Reader

def expect (token : String) (text : List Char) : Option (List Char) :=
  if token.toList.isPrefixOf text then some (text.drop token.length) else none

def readQuoted (text : List Char) : Option (String × List Char) := do
  let rest ← expect "\"" text
  let (characters, behind) ← readString rest
  return (String.ofList characters, behind)

def ClaimVerdict.ofWireName (name : String) : Option ClaimVerdict :=
  [ClaimVerdict.supported, .unsupported, .ambiguous].find? (·.wireName = name)

def readVerdict (text : List Char) : Option (RawClaimVerdict × List Char) := do
  let text ← expect "\x7b\"claim_id\":" text
  let (claimId, text) ← readQuoted text
  let text ← expect ",\"verdict\":" text
  let (name, text) ← readQuoted text
  let verdict ← ClaimVerdict.ofWireName name
  let text ← expect "\x7d" text
  return (⟨claimId, verdict⟩, text)

/-- At most `fuel` verdicts, separated by commas. -/
def readVerdicts : Nat → List Char → Option (List RawClaimVerdict × List Char)
  | 0, _ => none
  | fuel + 1, text => do
    let (first, text) ← readVerdict text
    match expect "," text with
    | some more =>
      let (rest, behind) ← readVerdicts fuel more
      return (first :: rest, behind)
    | none => return ([first], text)

/-- Reads the texts that `RawVerificationResponse.toJson` writes. -/
def readResponse (text : String) : Option RawVerificationResponse := do
  let items ← expect "\x7b\"verdicts\":[" text.toList
  if items = "]\x7d".toList then return ⟨[]⟩
  else
    let (verdicts, behind) ← readVerdicts items.length items
    if behind = "]\x7d".toList then return ⟨verdicts⟩ else none

variable {rest : List Char}

theorem expect_append (token : String) : expect token (token.toList ++ rest) = some rest := by
  simp [expect, ← String.length_toList]

theorem readQuoted_quote (text : String) :
    readQuoted ((quote text).toList ++ rest) = some (text, rest) := by
  have opened : expect "\"" ((quote text).toList ++ rest) =
      some (escapeText text.toList ++ '"' :: rest) := by
    rw [quote_toList, List.cons_append, List.append_assoc]
    exact expect_append "\""
  simp [readQuoted, opened, readString_escapeText]

theorem ofWireName_wireName (verdict : ClaimVerdict) :
    ClaimVerdict.ofWireName verdict.wireName = some verdict := by
  cases verdict <;> rfl

theorem readVerdict_toJson (raw : RawClaimVerdict) :
    readVerdict (raw.toJson.toList ++ rest) = some (raw, rest) := by
  simp only [RawClaimVerdict.toJson, String.toList_append, List.append_assoc, readVerdict,
    expect_append, readQuoted_quote, ofWireName_wireName, Option.bind_eq_bind, Option.bind_some]
  rfl

theorem readVerdicts_toJson {fuel : Nat} {raws : List RawClaimVerdict} (some : raws ≠ [])
    (enough : raws.length ≤ fuel) :
    readVerdicts fuel ((",".intercalate (raws.map (·.toJson))).toList ++ "]\x7d".toList) =
      .some (raws, "]\x7d".toList) := by
  induction raws generalizing fuel with
  | nil => exact absurd rfl some
  | cons raw later ih =>
      cases fuel with
      | zero => exact absurd enough (by simp)
      | succ fuel =>
          cases later with
          | nil =>
              have closed : expect "," "]\x7d".toList = none := by decide
              rw [List.map_singleton, String.intercalate_singleton, readVerdicts,
                readVerdict_toJson, Option.bind_eq_bind, Option.bind_some]
              simp only [closed]
              rfl
          | cons next more =>
              have behind := @ih fuel (by simp) (by simpa using enough)
              rw [List.map_cons, List.map_cons, String.intercalate_cons_cons]
              rw [List.map_cons] at behind
              simp only [String.toList_append, List.append_assoc, readVerdicts,
                readVerdict_toJson, Option.bind_eq_bind, Option.bind_some, expect_append, behind]
              rfl

theorem length_le_intercalate (raws : List RawClaimVerdict) :
    raws.length ≤ (",".intercalate (raws.map (·.toJson))).length := by
  induction raws with
  | nil => simp
  | cons raw later ih =>
      have opened : 1 ≤ raw.toJson.length := by
        simp only [RawClaimVerdict.toJson, String.length_append, quote_length]
        omega
      cases later with
      | nil => simpa using opened
      | cons next more =>
          rw [List.map_cons, List.map_cons, String.intercalate_cons_cons]
          rw [List.map_cons] at ih
          simp only [String.length_append, List.length_cons] at ih ⊢
          omega

theorem readResponse_readsBack : ReadsBack readResponse := by
  intro response
  obtain ⟨raws⟩ := response
  have opened : expect "\x7b\"verdicts\":[" (RawVerificationResponse.toJson ⟨raws⟩).toList =
      some ((",".intercalate (raws.map (·.toJson))).toList ++ "]\x7d".toList) := by
    have whole : (RawVerificationResponse.toJson ⟨raws⟩).toList = "\x7b\"verdicts\":[".toList ++
        ((",".intercalate (raws.map (·.toJson))).toList ++ "]\x7d".toList) := by
      simp [RawVerificationResponse.toJson, jsonArray]
    rw [whole, expect_append]
  rw [readResponse, opened, Option.bind_eq_bind, Option.bind_some]
  cases raws with
  | nil => rfl
  | cons raw later =>
      have read := @readVerdicts_toJson
        ((",".intercalate ((raw :: later).map (·.toJson))).toList ++ "]\x7d".toList).length
        (raw :: later) (by simp) (by
          have := length_le_intercalate (raw :: later)
          rw [List.length_append, String.length_toList]
          omega)
      have busy : (",".intercalate ((raw :: later).map (·.toJson))).toList ++ "]\x7d".toList ≠
          "]\x7d".toList := by
        intro none
        have := length_le_intercalate (raw :: later)
        have empty := congrArg List.length none
        rw [List.length_append, String.length_toList] at empty
        simp only [List.length_cons] at this
        omega
      rw [if_neg busy, read]
      rfl

end Reader

/-- Two claims that share a quotation. -/
theorem shared_quotation_round_trips : ∃ limit batch,
    materializeVerificationBatch sampleVerificationPrompt.claims sampleCitedClaims limit =
      .ok batch ∧ RestoresVerdicts readResponse batch ∧ NamesRoundTrip batch.identifiers := by
  obtain ⟨⟨userPrompt, ids⟩, rendered⟩ := exists_ok
    (show (requestPrompt sampleVerificationPrompt.claims).isOk = true by decide +kernel)
  have made := materializeVerificationBatch_ok.mpr ⟨userPrompt, ids, rendered,
    (⟨by decide, Nat.le_refl _⟩ : WithinBounds sampleCitedClaims.length _ _), rfl⟩
  have all := verdicts_round_trip readResponse_readsBack (by decide +kernel) made
  exact ⟨_, _, made, all.2.2.1, all.2.2.2.1⟩

example : (do
    let (userPrompt, ids) ← requestPrompt sampleVerificationPrompt.claims
    batchVerdicts readResponse ⟨"", userPrompt, sampleCitedClaims, ids⟩
      ("\x7b\"verdicts\":[\x7b\"claim_id\":\"k2\",\"verdict\":\"ambiguous\"\x7d," ++
        "\x7b\"claim_id\":\"k1\",\"verdict\":\"supported\"\x7d]\x7d")).toOption =
    some [⟨"claim-private-a", ["evidence-private-a"], .supported⟩,
      ⟨"claim-private-b", ["evidence-private-a", "evidence-private-b"], .ambiguous⟩] := by
  decide +kernel

end DocumentSummarizer.Pipeline
