import DocumentSummarizer.Pipeline.ContractExtraction

/-! # Rendering a contract

Key terms first, then the full list of source clauses.  A unit is what delivery
does not break: a selection, or one clause.
-/

namespace DocumentSummarizer.Pipeline

open Library

/-! ## Claim lines -/

/-- `(page_start, page_end, section_id)` in lexicographic order. -/
def spanLe (left right : SourceSpan) : Bool :=
  decide (left.pageStart < right.pageStart) || left.pageStart == right.pageStart &&
    (decide (left.pageEnd < right.pageEnd) || left.pageEnd == right.pageEnd &&
      match left.sectionId, right.sectionId with
      | none, _ => true
      | some _, none => false
      | some a, some b => decide (a ≤ b))

def spanLabel (span : SourceSpan) : String :=
  if span.pageStart = span.pageEnd then "p. " ++ toString span.pageStart
  else "pp. " ++ toString span.pageStart ++ "–" ++ toString span.pageEnd

/-- `Vec::dedup` -/
def withoutRepeats {α : Type} [DecidableEq α] (items : List α) : List α :=
  items.destutter (· ≠ ·)

def citationLabel (spans : List SourceSpan) : String :=
  "[" ++ "; ".intercalate (withoutRepeats (spans.map spanLabel)) ++ "]"

/-- The evidence as a map by identity; the last of an identity is the one found. -/
def findEvidence (evidence : List EvidenceItem) (evidenceId : String) : Option EvidenceItem :=
  evidence.reverse.find? (·.evidenceId = evidenceId)

theorem findEvidence_of_unique {evidence : List EvidenceItem} {item : EvidenceItem}
    (mem : item ∈ evidence)
    (unique : ∀ other ∈ evidence, other.evidenceId = item.evidenceId → other = item) :
    findEvidence evidence item.evidenceId = some item := by
  obtain ⟨found, hit⟩ : ∃ found, findEvidence evidence item.evidenceId = some found := by
    apply Option.isSome_iff_exists.mp
    rw [findEvidence, List.find?_isSome]
    exact ⟨item, List.mem_reverse.mpr mem, decide_eq_true rfl⟩
  have same : found.evidenceId = item.evidenceId := of_decide_eq_true (List.find?_some hit :)
  rw [hit, unique found (List.mem_reverse.mp (List.mem_of_find?_eq_some hit)) same]

def renderClaimLine (evidence : List EvidenceItem) (claim : CitedClaim) :
    Except PipelineFailure String := do
  let spans ← claim.evidenceIds.mapM fun evidenceId => do
    let item ← okOrElse (findEvidence evidence evidenceId)
      (stageFailure .synthesize "INVALID_SYNTHESIZED_DOCUMENT"
        "A claim references unknown evidence" false)
    return item.sourceSpan
  return claim.text ++ " " ++
    citationLabel (withoutRepeats (spans.insertionSort fun a b => spanLe a b = true))

def renderClaimLines (claims : List CitedClaim) (evidence : List EvidenceItem) :
    Except PipelineFailure (List String) :=
  claims.mapM (renderClaimLine evidence)

/-! ## Units -/

structure RenderUnit where
  text : String
  clauseIds : List String
  deriving DecidableEq, Repr

/-- The lines of the clauses by identity, in the order of the clauses. -/
def clauseLines : List (String × String) → List (ExtractedContractClause × CitedClaim × String) →
    Except PipelineFailure (List (String × String))
  | lines, [] => .ok lines
  | lines, (clause, claim, line) :: rest => do
    refuseIf (clause.clauseId ≠ claim.claimId ∨ clause.text ≠ claim.text ∨
        clause.evidenceIds ≠ claim.evidenceIds ∨ clause.clauseId ∈ lines.map (·.1))
      invalidContractExtraction
    clauseLines (lines ++ [(clause.clauseId, clause.clauseId ++ "\n" ++ line)]) rest

/-- A text after what is pending. -/
def afterPending (pending text : String) : String :=
  if pending = "" then text else pending ++ "\n\n" ++ text

/-- The quoted lines of a selection, each clause once. -/
def quotedLines (byId : List (String × String)) :
    List String → List String → Except PipelineFailure (List String)
  | _, [] => .ok []
  | seen, id :: rest => do
    refuseIf (id ∈ seen) invalidContractExtraction
    let line ← okOrElse (byId.lookup id) invalidContractExtraction
    let later ← quotedLines byId (id :: seen) rest
    return line :: later

/-- The units of the selections of one term, the first after what is pending. -/
def selectionUnits (byId : List (String × String)) :
    String → List ContractSectionSelection → Except PipelineFailure (String × List RenderUnit)
  | pending, [] => .ok (pending, [])
  | pending, selection :: rest => do
    refuseIf (selection.clauseIds.head? ≠ some selection.rootClauseId) invalidContractExtraction
    let quoted ← quotedLines byId [] selection.clauseIds
    let (pending', later) ← selectionUnits byId "" rest
    return (pending',
      ⟨afterPending pending ("\n\n".intercalate quoted), selection.clauseIds⟩ :: later)

/-- The units of the key terms, and what is pending behind them. -/
def termUnits (byId : List (String × String)) :
    String → List ContractKeyTerm → Except PipelineFailure (String × List RenderUnit)
  | pending, [] => .ok (pending, [])
  | pending, term :: rest =>
    if term.selections = [] then
      termUnits byId (pending ++ "\n\n" ++ term.category.label ++ ": not identified") rest
    else do
      let (pending, units) ← selectionUnits byId (pending ++ "\n\n" ++ term.category.label)
        term.selections
      let (pending, later) ← termUnits byId pending rest
      return (pending, units ++ later)

/-- One unit for every clause, the first after what is pending. -/
def listUnits (byId : List (String × String)) :
    String → List ExtractedContractClause → Except PipelineFailure (List RenderUnit)
  | _, [] => .ok []
  | pending, clause :: rest => do
    let line ← okOrElse (byId.lookup clause.clauseId) invalidContractExtraction
    let later ← listUnits byId "" rest
    return ⟨afterPending pending line, [clause.clauseId]⟩ :: later

/-- Canonical text, atomic delivery boundaries and source accounting in one. -/
def renderUnits (extraction : ContractExtraction) (claims : List CitedClaim)
    (evidence : List EvidenceItem) : Except PipelineFailure (List RenderUnit) := do
  refuseIf (extraction.keyTerms.map (·.category) ≠ ContractTermCategory.all ∨
      claims.length ≠ extraction.clauses.length) invalidContractExtraction
  let lines ← renderClaimLines claims evidence
  let byId ← clauseLines [] (extraction.clauses.zip (claims.zip lines))
  let (pending, units) ← termUnits byId "Key terms" extraction.keyTerms
  let pending := if pending = "" then "Full clause list" else pending ++ "\n\nFull clause list"
  let later ← listUnits byId pending extraction.clauses
  return units ++ later

end DocumentSummarizer.Pipeline
