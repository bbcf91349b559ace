import DocumentSummarizer.Library.Fallible
import DocumentSummarizer.Library.JsonText
import DocumentSummarizer.Library.Renaming
import DocumentSummarizer.Pipeline.SummaryContracts
import Std.Data.String.ToNat

/-! # Request-local identities

A verification request names its claims and their evidence by ordinals of its
own.  The model's verdicts come back under these names and are restored to the
durable ids.
-/

namespace DocumentSummarizer.Pipeline

open Library

def maxVerificationClaimsPerRequest : Nat := 16

def stageFailure (stage : PipelineStage) (code message : String) (recoverable : Bool) :
    PipelineFailure :=
  ⟨code, message, some stage, recoverable⟩

/-! ## Identities -/

/-- `(1..=count).map(|i| format!("{prefix}{i}"))` -/
def ordinals (kind : String) (count : Nat) : List String :=
  (List.range count).map fun i => kind ++ toString (i + 1)

theorem ordinals_nodup (kind : String) (count : Nat) : (ordinals kind count).Nodup := by
  apply List.nodup_range.map
  intro i j same
  have digits : toString (i + 1) = toString (j + 1) := by
    simpa [String.ext_iff, String.toList_append] using same
  have := Nat.repr_injective digits
  omega

theorem ordinals_length (kind : String) (count : Nat) : (ordinals kind count).length = count := by
  simp [ordinals]

/-- The durable ids of a request and the names it uses for them. -/
structure RequestIds where
  locals : List String
  durable : List String
  stage : PipelineStage
  aligned : locals.length = durable.length
  locals_nodup : locals.Nodup
  durable_nodup : durable.Nodup

namespace RequestIds

def new (kind : String) (durable : List String) (stage : PipelineStage) :
    Except PipelineFailure RequestIds :=
  if h : durable ≠ [] ∧ (∀ id ∈ durable, id ≠ "") ∧ durable.Nodup then
    .ok ⟨ordinals kind durable.length, durable, stage, ordinals_length kind durable.length,
      ordinals_nodup kind durable.length, h.2.2⟩
  else
    .error (stageFailure stage "MODEL_REQUEST_INVALID"
      "Request identities must be nonempty and unique" false)

def vocabulary (ids : RequestIds) : List String :=
  ids.locals

def invalid (ids : RequestIds) : PipelineFailure :=
  stageFailure ids.stage
    (if ids.stage = .verify then "MODEL_VERIFICATION_RESPONSE_INVALID"
      else "MODEL_CLAIMS_RESPONSE_INVALID")
    "Model reference is not in this request's identifier vocabulary" true

/-- `local` -/
def localOf (ids : RequestIds) (durable : String) : Except PipelineFailure String :=
  okOrElse (rename ids.durable ids.locals durable) ids.invalid

def restore (ids : RequestIds) (name : String) : Except PipelineFailure String :=
  okOrElse (rename ids.locals ids.durable name) ids.invalid

end RequestIds

section Identities

variable {ids : RequestIds} {durable name : String}

theorem RequestIds.localOf_ok :
    ids.localOf durable = .ok name ↔ rename ids.durable ids.locals durable = some name :=
  okOrElse_eq_ok

theorem RequestIds.restore_ok :
    ids.restore name = .ok durable ↔ rename ids.locals ids.durable name = some durable :=
  okOrElse_eq_ok

theorem RequestIds.restore_iff_localOf :
    ids.restore name = .ok durable ↔ ids.localOf durable = .ok name := by
  rw [RequestIds.restore_ok, RequestIds.localOf_ok]
  exact rename_comm ids.locals_nodup ids.durable_nodup

theorem RequestIds.new_ok {kind : String} {names : List String} {stage : PipelineStage}
    (h : RequestIds.new kind names stage = .ok ids) :
    ids.durable = names ∧ ids.locals = ordinals kind names.length ∧ names ≠ [] := by
  unfold RequestIds.new at h
  split at h
  · next valid =>
      cases h
      exact ⟨rfl, rfl, valid.1⟩
  · cases h

theorem RequestIds.localOf_mem (mem : durable ∈ ids.durable) :
    ∃ name ∈ ids.vocabulary, ids.localOf durable = .ok name := by
  obtain ⟨name, named⟩ := rename_of_mem ids.aligned.symm mem
  exact ⟨name, (rename_mem ids.durable_nodup named).2, RequestIds.localOf_ok.mpr named⟩

theorem RequestIds.localOf_injective {durable' : String} (h : ids.localOf durable = .ok name)
    (h' : ids.localOf durable' = .ok name) : durable = durable' :=
  rename_inj ids.durable_nodup ids.locals_nodup (RequestIds.localOf_ok.mp h)
    (RequestIds.localOf_ok.mp h')

end Identities

/-! ## The request -/

structure PromptVerificationEvidence where
  evidenceId : String
  exactQuote : String
  deriving DecidableEq, Repr

structure PromptVerificationClaim where
  claimId : String
  text : String
  sourceFraming : Option String
  evidence : List PromptVerificationEvidence
  deriving DecidableEq, Repr

structure VerificationPrompt where
  claims : List PromptVerificationClaim
  deriving DecidableEq, Repr

/-- The compact JSON array of its items. -/
def jsonArray (items : List String) : String :=
  "[" ++ ",".intercalate items ++ "]"

def PromptVerificationEvidence.toJson (evidence : PromptVerificationEvidence) : String :=
  "\x7b\"evidence_id\":" ++ quote evidence.evidenceId ++ ",\"exact_quote\":" ++
    quote evidence.exactQuote ++ "\x7d"

def PromptVerificationClaim.toJson (claim : PromptVerificationClaim) : String :=
  "\x7b\"claim_id\":" ++ quote claim.claimId ++ ",\"text\":" ++ quote claim.text ++
    (match claim.sourceFraming with
      | some framing => ",\"source_framing\":" ++ quote framing
      | none => "") ++
    ",\"evidence\":" ++ jsonArray (claim.evidence.map (·.toJson)) ++ "\x7d"

def VerificationPrompt.toJson (prompt : VerificationPrompt) : String :=
  "\x7b\"claims\":" ++ jsonArray (prompt.claims.map (·.toJson)) ++ "\x7d"

/-- The evidence under its name in the request. -/
def PromptVerificationEvidence.localize (ids : RequestIds) (item : PromptVerificationEvidence) :
    Except PipelineFailure PromptVerificationEvidence := do
  let name ← ids.localOf item.evidenceId
  return { item with evidenceId := name }

/-- The claim and its evidence under their names in the request. -/
def PromptVerificationClaim.localize (ids evidence : RequestIds) (claim : PromptVerificationClaim) :
    Except PipelineFailure PromptVerificationClaim := do
  let name ← ids.localOf claim.claimId
  let items ← claim.evidence.mapM (·.localize evidence)
  return { claim with claimId := name, evidence := items }

/-- The ids of the evidence that the claims cite, each where it is seen first. -/
def citedEvidence (claims : List PromptVerificationClaim) : List String :=
  (claims.flatMap fun claim => claim.evidence.map (·.evidenceId)).eraseDups

/-- `identifiers::verification_prompt` -/
def requestPrompt (claims : List PromptVerificationClaim) :
    Except PipelineFailure (String × RequestIds) := do
  let ids ← RequestIds.new "k" (claims.map (·.claimId)) .verify
  let evidence ← RequestIds.new "e" (citedEvidence claims) .verify
  let wire ← claims.mapM (·.localize ids evidence)
  return ((⟨wire⟩ : VerificationPrompt).toJson, ids)

/-! ## The response -/

structure RawClaimVerdict where
  claimId : String
  verdict : ClaimVerdict
  deriving DecidableEq, Repr

structure RawVerificationResponse where
  verdicts : List RawClaimVerdict
  deriving DecidableEq, Repr

def ClaimVerdict.wireName : ClaimVerdict → String
  | .supported => "supported"
  | .unsupported => "unsupported"
  | .ambiguous => "ambiguous"

def RawClaimVerdict.toJson (raw : RawClaimVerdict) : String :=
  "\x7b\"claim_id\":" ++ quote raw.claimId ++ ",\"verdict\":" ++ quote raw.verdict.wireName ++
    "\x7d"

/-- `serde_json::to_string` of a response. -/
def RawVerificationResponse.toJson (response : RawVerificationResponse) : String :=
  "\x7b\"verdicts\":" ++ jsonArray (response.verdicts.map (·.toJson)) ++ "\x7d"

/-- `serde_json::from_str` reads what `serde_json::to_string` writes. -/
def ReadsBack (fromStr : String → Option RawVerificationResponse) : Prop :=
  ∀ response, fromStr response.toJson = some response

def RawClaimVerdict.restore (ids : RequestIds) (raw : RawClaimVerdict) :
    Except PipelineFailure RawClaimVerdict := do
  let durable ← ids.restore raw.claimId
  return { raw with claimId := durable }

/-- `RequestIds::verdict_response` -/
def RequestIds.verdictResponse (fromStr : String → Option RawVerificationResponse)
    (ids : RequestIds) (text : String) : Except PipelineFailure String := do
  let response ← okOrElse (fromStr text) ids.invalid
  let verdicts ← response.verdicts.mapM (·.restore ids)
  return (⟨verdicts⟩ : RawVerificationResponse).toJson

def invalidResponse (message : String) : PipelineFailure :=
  stageFailure .verify "MODEL_VERIFICATION_RESPONSE_INVALID" message true

/-- The map of the verdicts by claim id. -/
def insertVerdicts (known : List String) :
    List (String × ClaimVerdict) → List RawClaimVerdict →
      Except PipelineFailure (List (String × ClaimVerdict))
  | verdicts, [] => .ok verdicts
  | verdicts, raw :: rest => do
    refuseIf (raw.claimId ∉ known ∨ (verdicts.lookup raw.claimId).isSome)
      (invalidResponse "Verification verdicts must reference unique known claim IDs")
    insertVerdicts known (verdicts ++ [(raw.claimId, raw.verdict)]) rest

/-- The verdicts in the order of the claims, each taken out of the map. -/
def removeVerdicts : List (String × ClaimVerdict) → List CitedClaim →
    Except PipelineFailure (List ClaimVerification)
  | _, [] => .ok []
  | verdicts, claim :: rest => do
    let verdict ← okOrElse (verdicts.lookup claim.claimId)
      (invalidResponse "Verification omitted a summary claim")
    let later ← removeVerdicts (verdicts.filter (·.1 ≠ claim.claimId)) rest
    return ⟨claim.claimId, claim.evidenceIds, verdict⟩ :: later

def parseVerificationResponse (fromStr : String → Option RawVerificationResponse)
    (response : String) (claims : List CitedClaim) :
    Except PipelineFailure (List ClaimVerification) := do
  let raw ← okOrElse (fromStr response)
    (invalidResponse "The model verification response was not valid contract JSON")
  refuseIf (raw.verdicts.length ≠ claims.length ∨ raw.verdicts = [] ∨
      raw.verdicts.length > maxVerificationClaimsPerRequest)
    (invalidResponse "Verification must return exactly one verdict for every summary claim")
  let verdicts ← insertVerdicts (claims.map (·.claimId)) [] raw.verdicts
  removeVerdicts verdicts claims

end DocumentSummarizer.Pipeline
