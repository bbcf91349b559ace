import Mathlib.Algebra.BigOperators.Group.Finset.Piecewise
import Mathlib.Algebra.Order.BigOperators.Group.Multiset
import Mathlib.Data.Multiset.Basic
import DocumentSummarizer.Library.Submasks
import DocumentSummarizer.Pipeline.SummaryContracts

/-! # Split repair

An answer that repairs units with mixed sources keeps the claims it had to keep and
splits each mixed unit over claims of its own.  The claims are at most eight, so a set
of them is a mask, and the search for the split remembers the states it has failed in.
-/

namespace DocumentSummarizer.Coherent

open DocumentSummarizer.Library DocumentSummarizer.Pipeline

def maxSummaryClaims : Nat := 8

/-- The masks of the search, `u16`. -/
abbrev ClaimMask := BitVec 16

/-! ## The claims that are kept -/

/-- Text and evidence decide whether a claim is the one to keep; its id does not. -/
def sameClaim (required claim : CitedClaim) : Bool :=
  claim.text == required.text && claim.evidenceIds == required.evidenceIds

/-- The loop over the claims to keep, each looked for behind the one before. -/
def markPreserved (candidate : List CitedClaim) :
    List CitedClaim → List Bool → Nat → Option (List Bool)
  | [], consumed, _ => some consumed
  | required :: later, consumed, nextCandidate =>
      match (candidate.drop nextCandidate).findIdx? (sameClaim required) with
      | none => none
      | some relativeIndex =>
          markPreserved candidate later (consumed.set (nextCandidate + relativeIndex) true)
            (nextCandidate + relativeIndex + 1)

def preservedClaimPositions (candidate required : List CitedClaim) : Option (List Bool) :=
  markPreserved candidate required (List.replicate candidate.length false) 0

/-! ## The claims a split unit is spread over -/

/-- The ids of a claim taken off what is still required: the counts of the required ids
are the occurrences that are left of each. -/
def takeEvidence : List String → List String → Option (List String)
  | remaining, [] => some remaining
  | remaining, evidenceId :: later =>
      if evidenceId ∈ remaining then takeEvidence (remaining.erase evidenceId) later else none

def matchSubset (subset : ClaimMask) : List CitedClaim → Nat → List String → Bool
  | [], _, remaining => remaining.isEmpty
  | claim :: later, index, remaining =>
      if subset &&& (1#16 <<< index) = 0#16 then matchSubset subset later (index + 1) remaining
      else
        match takeEvidence remaining claim.evidenceIds with
        | none => false
        | some remaining => matchSubset subset later (index + 1) remaining

def subsetExactlyMatchesSibling (candidate : List CitedClaim) (subset : ClaimMask)
    (requiredEvidence : List String) : Bool :=
  matchSubset subset candidate 0 requiredEvidence

/-- The states in which the search has been: how many units are settled, and which claims
are taken. -/
abbrev FailedStates := List (Nat × ClaimMask)

/-- The loop over the submasks of the claims that are free. -/
def tryGroups (candidate : List CitedClaim) (requiredEvidence : List String)
    (consumedMask available : ClaimMask)
    (assign : ClaimMask → FailedStates → Option ClaimMask × FailedStates)
    (subset : ClaimMask) (failedStates : FailedStates) : Option ClaimMask × FailedStates :=
  if subset = 0 then (none, failedStates)
  else if subsetExactlyMatchesSibling candidate subset requiredEvidence then
    match assign (consumedMask ||| subset) failedStates with
    | (some finalMask, failedStates) => (some finalMask, failedStates)
    | (none, failedStates) =>
        tryGroups candidate requiredEvidence consumedMask available assign
          (nextSubmask subset available) failedStates
  else
    tryGroups candidate requiredEvidence consumedMask available assign
      (nextSubmask subset available) failedStates
termination_by subset.toNat
decreasing_by all_goals exact nextSubmask_lt ‹_› available

def allClaims (candidate : List CitedClaim) : ClaimMask := (1#16 <<< candidate.length) - 1#16

def assignSiblings (candidate : List CitedClaim) :
    Nat → List (List String) → ClaimMask → FailedStates → Option ClaimMask × FailedStates
  | _, [], consumedMask, failedStates => (some consumedMask, failedStates)
  | siblingIndex, requiredEvidence :: later, consumedMask, failedStates =>
      if (siblingIndex, consumedMask) ∈ failedStates then (none, failedStates)
      else
        tryGroups candidate requiredEvidence consumedMask (allClaims candidate &&& ~~~consumedMask)
          (assignSiblings candidate (siblingIndex + 1) later)
          (allClaims candidate &&& ~~~consumedMask) ((siblingIndex, consumedMask) :: failedStates)

/-- The flags folded into a mask, the first of them at the given position. -/
def flagsMask : List Bool → Nat → ClaimMask → ClaimMask
  | [], _, mask => mask
  | isConsumed :: later, index, mask =>
      flagsMask later (index + 1) (mask ||| (BitVec.ofNat 16 isConsumed.toNat <<< index))

/-- The flags after a search that succeeded; a search that fails leaves them as they were. -/
def consumeRequiredSiblingClaims (candidate : List CitedClaim) (consumed : List Bool)
    (requiredSiblings : List (List String)) : Option (List Bool) :=
  if candidate.length > maxSummaryClaims ∨ consumed.length ≠ candidate.length then none
  else
    match (assignSiblings candidate 0 requiredSiblings (flagsMask consumed 0 0#16) []).1 with
    | none => none
    | some finalMask =>
        some (consumed.zipIdx.map fun (_, index) => decide (finalMask &&& (1#16 <<< index) ≠ 0#16))

def satisfiesSplitRepair (candidate preservedClaims : List CitedClaim)
    (mixedUnitEvidenceIds : List (List String)) : Bool :=
  match preservedClaimPositions candidate preservedClaims with
  | none => false
  | some consumed =>
      match consumeRequiredSiblingClaims candidate consumed mixedUnitEvidenceIds with
      | none => false
      | some consumed => consumed.all fun isConsumed => isConsumed

/-! ## What is searched for -/

/-- The evidence of the claim at a position. -/
def evidenceAt (candidate : List CitedClaim) (position : Nat) : Multiset String :=
  ((candidate[position]?.map CitedClaim.evidenceIds).getD [] : List String)

/-- The evidence of a group of claims, with every repetition. -/
def combinedEvidence (candidate : List CitedClaim) (group : Finset Nat) : Multiset String :=
  ∑ position ∈ group, evidenceAt candidate position

/-- The positions whose flag is set. -/
def flagged (consumed : List Bool) : Finset Nat :=
  (Finset.range consumed.length).filter fun position => consumed[position]? = some true

/-- Groups of free claims that share no claim, one for each unit, each with exactly the
evidence of its unit. -/
structure SiblingGroups (candidate : List CitedClaim) (taken : Finset Nat)
    (required : List (List String)) (groups : List (Finset Nat)) : Prop where
  matched : List.Forall₂
    (fun (group : Finset Nat) (evidence : List String) =>
      group.Nonempty ∧ combinedEvidence candidate group = (evidence : Multiset String))
    groups required
  free : ∀ group ∈ groups, group ⊆ Finset.range candidate.length \ taken
  apart : groups.Pairwise Disjoint

/-- Positions, in order, of claims to keep. -/
structure OccursAt (candidate preserved : List CitedClaim) (positions : List Nat) : Prop where
  ascending : positions.Pairwise (· < ·)
  same : List.Forall₂
    (fun position required => ∃ claim, candidate[position]? = some claim ∧
      claim.text = required.text ∧ claim.evidenceIds = required.evidenceIds)
    positions preserved

/-- No other occurrence has any of its claims further to the left. -/
structure LeftmostAt (candidate preserved : List CitedClaim) (positions : List Nat) : Prop where
  occurs : OccursAt candidate preserved positions
  first : ∀ others, OccursAt candidate preserved others →
    List.Forall₂ (· ≤ ·) positions others

end DocumentSummarizer.Coherent
