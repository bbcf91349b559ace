import DocumentSummarizer.Pipeline.Composition

/-! # Interpretation of accepted documents

What the final validation of the interpreter establishes: the preorder of the
tree is the source order of the blocks, and numbered headings nest by prefix.
-/

namespace DocumentSummarizer.Pipeline

open Library

mutual

/-- A node, then the nodes below it. -/
def preorder : StructureNode → List StructureNode
  | ⟨nodeId, kind, title, level, blockIds, sourceSpans, children⟩ =>
    ⟨nodeId, kind, title, level, blockIds, sourceSpans, children⟩ :: preorderAll children

def preorderAll : List StructureNode → List StructureNode
  | [] => []
  | node :: rest => preorder node ++ preorderAll rest

end

/-- The number of a section or subsection, as the text of its first block spells it. -/
def headingNumber (platform : TextPlatform) (blocks : List NormalizedBlock)
    (node : StructureNode) : Option (List Nat) :=
  if node.kind = .section ∨ node.kind = .subsection then do
    let blockId ← node.blockIds.head?
    let block ← blockLookup blocks blockId
    let signal ← detectNumberedHeading platform block.text
    return signal.numbering
  else
    none

/-- A subsection stands under the heading of its prefix. -/
def NestsByPrefix (platform : TextPlatform) (blocks : List NormalizedBlock)
    (parent child : StructureNode) : Prop :=
  child.kind = .subsection → ∃ numbering,
    headingNumber platform blocks child = some numbering ∧
      headingNumber platform blocks parent = some numbering.dropLast

section Soundness

variable {platform : TextPlatform} {blocks : List NormalizedBlock} {documentId version : String}

theorem headingNumber_of_signal {node : StructureNode} {signal : HeadingSignal}
    (kind : node.kind = .section ∨ node.kind = .subsection)
    (h : headingSignalForNode platform blocks node = .ok signal) :
    headingNumber platform blocks node = some signal.numbering := by
  simp only [headingSignalForNode, peel_ok, okOrElse_eq_ok] at h
  obtain ⟨blockId, first, block, found, detected⟩ := h
  simp [headingNumber, kind, first, found, detected]

theorem headingNumber_eq_none {node : StructureNode}
    (other : ¬ (node.kind = .section ∨ node.kind = .subsection)) :
    headingNumber platform blocks node = none :=
  if_neg other

theorem validateNodeShape_parent {node parent : StructureNode}
    (h : validateNodeShape node (some parent) = .ok ()) (kind : node.kind = .subsection) :
    parent.kind = .section ∨ parent.kind = .subsection := by
  simp only [validateNodeShape, kind, refuseIf_eq_ok, Bool.not_eq_false, Bool.and_eq_true,
    Bool.or_eq_true, beq_iff_eq] at h
  exact h.1.1.1

/-- A heading adds its number, a new one; a subsection stands under its prefix. -/
theorem validateHeadingSource_sound {node : StructureNode} {parent : Option StructureNode}
    {seen seen' : List (List Nat)} (shape : validateNodeShape node parent = .ok ())
    (h : validateHeadingSource platform blocks node parent seen = .ok seen') :
    seen' = (headingNumber platform blocks node).toList ++ seen ∧ (seen.Nodup → seen'.Nodup) ∧
      ∀ p, parent = some p → NestsByPrefix platform blocks p node := by
  by_cases kind : node.kind = .section ∨ node.kind = .subsection
  · simp only [validateHeadingSource, kind, if_true, peel_ok, refuseIf_eq_ok, not_or] at h
    obtain ⟨signal, detected, _, ⟨-, -, new⟩, h⟩ := h
    have number := headingNumber_of_signal kind detected
    by_cases sub : node.kind = .subsection
    · simp only [if_pos sub, peel_ok, okOrElse_eq_ok, refuseIf_eq_ok, not_not, return_ok] at h
      obtain ⟨p, rfl, parentSignal, parentDetected, _, prefixed, rfl⟩ := h
      have parentNumber := headingNumber_of_signal (validateNodeShape_parent shape sub)
        parentDetected
      refine ⟨by rw [number]; rfl, fun nodup => List.nodup_cons.mpr ⟨new, nodup⟩, ?_⟩
      intro q same _
      cases same
      exact ⟨signal.numbering, number, prefixed ▸ parentNumber⟩
    · rw [if_neg sub] at h
      cases h
      refine ⟨by rw [number]; rfl, fun nodup => List.nodup_cons.mpr ⟨new, nodup⟩, ?_⟩
      intro q _ isSub
      exact absurd isSub sub
  · simp only [validateHeadingSource, kind, if_false] at h
    cases h
    refine ⟨by rw [headingNumber_eq_none kind]; rfl, id, ?_⟩
    intro q _ isSub
    exact absurd (.inr isSub) kind

/-- What a walk over `nodes` has collected and checked. -/
structure Walked (platform : TextPlatform) (blocks : List NormalizedBlock)
    (nodes : List StructureNode) (before after : NodeVisit) : Prop where
  referencedBlocks : after.referencedBlocks =
    before.referencedBlocks ++ nodes.flatMap (·.blockIds)
  headingNumbering : after.headingNumbering =
    (nodes.filterMap (headingNumber platform blocks)).reverse ++ before.headingNumbering
  distinct : before.headingNumbering.Nodup → after.headingNumbering.Nodup
  nested : ∀ parent ∈ nodes, ∀ child ∈ parent.children,
    NestsByPrefix platform blocks parent child

theorem Walked.append {front back : List StructureNode} {before middle after : NodeVisit}
    (first : Walked platform blocks front before middle)
    (second : Walked platform blocks back middle after) :
    Walked platform blocks (front ++ back) before after where
  referencedBlocks := by
    rw [second.referencedBlocks, first.referencedBlocks, List.flatMap_append, List.append_assoc]
  headingNumbering := by
    rw [second.headingNumbering, first.headingNumbering, List.filterMap_append,
      List.reverse_append, List.append_assoc]
  distinct := fun nodup => second.distinct (first.distinct nodup)
  nested := by
    intro parent mem
    rcases List.mem_append.mp mem with inFront | inBack
    · exact first.nested parent inFront
    · exact second.nested parent inBack

/-- The node itself, once its children are known to nest. -/
theorem visitNode_walked {node : StructureNode} {parent : Option StructureNode}
    {path : List Nat} {visit visit' : NodeVisit}
    (h : visitNode platform blocks documentId version node parent path visit = .ok visit')
    (children : ∀ child ∈ node.children, NestsByPrefix platform blocks node child) :
    Walked platform blocks [node] visit visit' ∧
      ∀ p, parent = some p → NestsByPrefix platform blocks p node := by
  simp only [visitNode, peel_ok, return_ok] at h
  obtain ⟨_, shape, numbers, heading, _, -, _, -, _, -, rfl⟩ := h
  obtain ⟨collected, distinct, nested⟩ := validateHeadingSource_sound shape heading
  refine ⟨⟨by simp, ?_, distinct, ?_⟩, nested⟩
  · show numbers = _
    rw [collected]
    cases found : headingNumber platform blocks node <;> simp [found]
  · intro q mem
    obtain rfl := List.mem_singleton.mp mem
    exact children

mutual

/-- An accepted tree is walked in preorder, and its root fits its parent. -/
theorem validateNode_walked {node : StructureNode} {parent : Option StructureNode}
    {path : List Nat} {visit visit' : NodeVisit}
    (h : validateNode platform blocks documentId version node parent path visit = .ok visit') :
    Walked platform blocks (preorder node) visit visit' ∧
      ∀ p, parent = some p → NestsByPrefix platform blocks p node := by
  cases node with
  | mk nodeId kind title level blockIds sourceSpans children =>
      simp only [validateNode, peel_ok] at h
      obtain ⟨middle, visited, below⟩ := h
      obtain ⟨walked, nested⟩ := validateChildren_walked below
      obtain ⟨own, fits⟩ := visitNode_walked visited nested
      rw [preorder]
      exact ⟨own.append walked, fits⟩

theorem validateChildren_walked {children : List StructureNode} {parent : StructureNode}
    {path : List Nat} {index : Nat} {visit visit' : NodeVisit}
    (h : validateChildren platform blocks documentId version children parent path index visit =
      .ok visit') :
    Walked platform blocks (preorderAll children) visit visit' ∧
      ∀ child ∈ children, NestsByPrefix platform blocks parent child := by
  cases children with
  | nil =>
      cases h
      rw [preorderAll]
      exact ⟨⟨by simp, by simp, id, nofun⟩, nofun⟩
  | cons child rest =>
      simp only [validateChildren, peel_ok] at h
      obtain ⟨_, -, middle, first, later⟩ := h
      obtain ⟨walked, fits⟩ := validateNode_walked first
      obtain ⟨walkedRest, fitRest⟩ := validateChildren_walked later
      rw [preorderAll]
      refine ⟨walked.append walkedRest, ?_⟩
      intro other mem
      rcases List.mem_cons.mp mem with rfl | inRest
      · exact fits parent rfl
      · exact fitRest other inRest

end

end Soundness

/-! ## The tree of an accepted document -/

/-- The tree below `root` lists the blocks of the document once, in source order, and every
heading has a number of its own under the number's prefix. -/
structure Outlines (platform : TextPlatform) (normalized : NormalizedDocument)
    (root : StructureNode) : Prop where
  blocks : (preorder root).flatMap (·.blockIds) = normalized.blocks.map (·.blockId)
  once : ((preorder root).flatMap (·.blockIds)).Nodup
  numbers : ((preorder root).filterMap (headingNumber platform normalized.blocks)).Nodup
  nested : ∀ parent ∈ preorder root, ∀ child ∈ parent.children, child.kind = .subsection →
    ∃ numbering, headingNumber platform normalized.blocks child = some numbering ∧
      headingNumber platform normalized.blocks parent = some numbering.dropLast

theorem outlines_of_validated {platform : TextPlatform} {normalized : NormalizedDocument}
    {structured : StructuredDocument} {expectedVersion : String}
    (h : validateStructuredDocument platform structured normalized expectedVersion = .ok ()) :
    ∃ root, structured.nodes = [root] ∧ Outlines platform normalized root := by
  simp only [validateStructuredDocument, peel_ok, refuseIf_eq_ok, okOrElse_eq_ok, not_not] at h
  obtain ⟨_, accepted, _, -, _, -, _, -, _, -, _, single, root, first, visit, walked, covered⟩ := h
  obtain ⟨root', alone⟩ := List.length_eq_one_iff.mp single
  have same : root' = root := by
    rw [alone] at first
    exact Option.some.inj first
  subst same
  obtain ⟨whole, -⟩ := validateNode_walked walked
  have blocks : (preorder root').flatMap (·.blockIds) = normalized.blocks.map (·.blockId) := by
    rw [← covered, whole.referencedBlocks]
    exact (List.nil_append _).symm
  refine ⟨root', alone, blocks, blocks ▸ validateNormalizedInput_distinct accepted, ?_,
    whole.nested⟩
  have distinct := whole.distinct List.nodup_nil
  rw [whole.headingNumbering, List.append_nil] at distinct
  exact List.nodup_reverse.mp distinct

/-- Interpretation succeeds on every document that its input check accepts, and its tree
outlines the document. -/
theorem interpret_outlines {platform : TextPlatform} {normalized : NormalizedDocument}
    (injective : Function.Injective platform.sha256Hex)
    (accepted : validateNormalizedInput normalized = .ok ()) :
    ∃ structured root, interpret platform normalized = .ok structured ∧
      structured.nodes = [root] ∧ Outlines platform normalized root := by
  obtain ⟨outline, -, -, interpreted⟩ := interpret_accepts injective accepted
    (validateNormalizedInput_distinct accepted)
  have result := interpreted
  simp only [interpret, peel_ok, return_ok] at result
  obtain ⟨_, -, _, -, _, validated, same⟩ := result
  rw [same] at validated
  obtain ⟨root, alone, outlines⟩ := outlines_of_validated validated
  exact ⟨_, root, interpreted, alone, outlines⟩

/-! ## A section with a subsection -/

/-- The digests of the node identities that interpretation makes of `nestedDocument`. -/
def nestedDigests : List (List UInt8 × String) :=
  [(asBytes "structure-node\x00doc\x001.0.0\x00document" ++ toBeBytes 0 ++ toBeBytes 0 ++
        asBytes "\x00",
      "67154c83ae9fa908571b1034ee1a9dc56e51cfbf5b819b286810e916a698977b"),
    (asBytes "structure-node\x00doc\x001.0.0\x00section" ++ toBeBytes 1 ++ toBeBytes 0 ++
        toBeBytes 0 ++ asBytes "\x00Scope\x00nb-1",
      "0960ba9f876aa4ee967a8e07d0a097e76b6869ef60131baa6570ce96b1342952"),
    (asBytes "structure-node\x00doc\x001.0.0\x00subsection" ++ toBeBytes 2 ++ toBeBytes 0 ++
        toBeBytes 0 ++ toBeBytes 0 ++ asBytes "\x00Terms\x00nb-2",
      "9c0d158069386db129369f448a8b97344f63dd11eb0b28bd07fe03734acc0033")]

def nestedPlatform : TextPlatform where
  sha256Hex bytes := ((nestedDigests.find? (·.1 == bytes)).map (·.2)).getD (byteCode bytes)
  isUppercase := Char.isUpper

def nestedDocument : NormalizedDocument where
  documentId := "doc"
  normalizationVersion := "1.0.0"
  pages := [⟨1, [⟨"nb-1", .text, "1. Scope", ⟨1, 1, none, .nativeText⟩⟩,
    ⟨"nb-2", .text, "1.1 Terms", ⟨1, 1, none, .nativeText⟩⟩], [], false⟩]
  warnings := []

theorem nested_document_outlines :
    ∃ structured root, interpret nestedPlatform nestedDocument = .ok structured ∧
      structured.nodes = [root] ∧ Outlines nestedPlatform nestedDocument root :=
  interpret_outlines (@listed_digest_injective nestedDigests (by decide +kernel)
    (by decide +kernel)) (by decide +kernel)

end DocumentSummarizer.Pipeline
