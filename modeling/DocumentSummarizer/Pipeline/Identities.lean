import Mathlib.Data.List.Lex
import DocumentSummarizer.Pipeline.Chunk
import DocumentSummarizer.Pipeline.Normalize

/-! # Identities

What the hashed preimages determine, when SHA-256 has no collisions: a block its
page, a node its path and a chunk its ordinal.
-/

namespace DocumentSummarizer.Pipeline

section

variable {platform : TextPlatform} (injective : Function.Injective platform.sha256Hex)

include injective

theorem deterministicBlockId_page {documentId version : String} {page page' index index' : Nat}
    (bound : page ≤ u32Max) (bound' : page' ≤ u32Max)
    (h : deterministicBlockId platform documentId version page index =
      deterministicBlockId platform documentId version page' index') : page = page' := by
  have preimage := injective ((String.append_right_inj _).mp h)
  simp only [List.append_assoc, List.append_cancel_left_eq] at preimage
  exact toBeBytes_injective bound bound' (List.append_inj preimage rfl).1

theorem deterministicChunkId_ordinal {documentId version nodeId nodeId' text text' : String}
    {ordinal ordinal' : Nat} {blockIds blockIds' : List String} (bound : ordinal ≤ u32Max)
    (bound' : ordinal' ≤ u32Max)
    (h : deterministicChunkId platform documentId version ordinal nodeId blockIds text =
      deterministicChunkId platform documentId version ordinal' nodeId' blockIds' text') :
    ordinal = ordinal' := by
  have preimage := injective ((String.append_right_inj _).mp h)
  simp only [List.append_assoc, List.append_cancel_left_eq] at preimage
  exact toBeBytes_injective bound bound' (List.append_inj preimage rfl).1

end

theorem nodeKindTag_bytes (kind : StructureNodeKind) :
    nodeKindTag kind = match kind with
      | .document => [100, 111, 99, 117, 109, 101, 110, 116]
      | .section => [115, 101, 99, 116, 105, 111, 110]
      | .subsection => [115, 117, 98, 115, 101, 99, 116, 105, 111, 110]
      | .unstructured => [117, 110, 115, 116, 114, 117, 99, 116, 117, 114, 101, 100] := by
  cases kind <;> rfl

theorem nodeKindTag_prefix_free {kind kind' : StructureNodeKind} {rest rest' : List UInt8}
    (h : nodeKindTag kind ++ rest = nodeKindTag kind' ++ rest') : kind = kind' ∧ rest = rest' := by
  simp only [nodeKindTag_bytes] at h
  cases kind <;> cases kind' <;> simp_all

theorem flatMap_toBeBytes_injective {path path' : List Nat} (bound : ∀ c ∈ path, c ≤ u32Max)
    (bound' : ∀ c ∈ path', c ≤ u32Max) (sameLength : path.length = path'.length)
    (h : path.flatMap toBeBytes = path'.flatMap toBeBytes) : path = path' := by
  induction path generalizing path' with
  | nil => exact (List.length_eq_zero_iff.mp sameLength.symm).symm
  | cons c path ih =>
      cases path' with
      | nil => cases sameLength
      | cons c' path' =>
          simp only [List.flatMap_cons] at h
          obtain ⟨first, later⟩ := List.append_inj h rfl
          have same := toBeBytes_injective (bound c List.mem_cons_self)
            (bound' c' List.mem_cons_self) first
          rw [same, ih (fun c mem => bound c (List.mem_cons_of_mem _ mem))
            (fun c mem => bound' c (List.mem_cons_of_mem _ mem))
            (Nat.succ.inj sameLength) later]

theorem flatMap_toBeBytes_length (path : List Nat) :
    (path.flatMap toBeBytes).length = 4 * path.length := by
  induction path with
  | nil => rfl
  | cons c path ih =>
      simp only [List.flatMap_cons, List.length_append, ih, toBeBytes_length, List.length_cons]
      omega

/-- A path that a node at this level can have. -/
structure PathAt (level : Nat) (path : List Nat) : Prop where
  length : path.length = level + 1
  components : ∀ c ∈ path, c ≤ u32Max
  bounded : level ≤ u32Max

theorem PathAt.child {level component : Nat} {path : List Nat} (h : PathAt level path)
    (small : component ≤ u32Max) (bound : level + 1 ≤ u32Max) :
    PathAt (level + 1) (path ++ [component]) where
  length := by simp [h.length]
  components c mem := by
    rcases List.mem_append.mp mem with inside | last
    · exact h.components c inside
    · exact List.mem_singleton.mp last ▸ small
  bounded := bound

theorem deterministicNodeId_path {platform : TextPlatform}
    (injective : Function.Injective platform.sha256Hex) {documentId version : String}
    {path path' : List Nat} {kind kind' : StructureNodeKind} {title title' : Option String}
    {level level' : Nat} {blockIds blockIds' : List String} (at_level : PathAt level path)
    (at_level' : PathAt level' path')
    (h : deterministicNodeId platform documentId version path kind title level blockIds =
      deterministicNodeId platform documentId version path' kind' title' level' blockIds') :
    path = path' := by
  have preimage := injective ((String.append_right_inj _).mp h)
  simp only [List.append_assoc, List.append_cancel_left_eq] at preimage
  have afterTag := (nodeKindTag_prefix_free preimage).2
  obtain ⟨levels, afterLevel⟩ := List.append_inj afterTag rfl
  obtain rfl := toBeBytes_injective at_level.bounded at_level'.bounded levels
  have sameLength : path.length = path'.length := at_level.length.trans at_level'.length.symm
  refine flatMap_toBeBytes_injective at_level.components at_level'.components sameLength ?_
  refine (List.append_inj afterLevel ?_).1
  rw [flatMap_toBeBytes_length, flatMap_toBeBytes_length, sameLength]

/-! ## Nodes visited in order -/

/-- The identities of nodes whose paths come before `path`. -/
def Earlier (platform : TextPlatform) (documentId version : String) (path : List Nat)
    (nodeIds : List String) : Prop :=
  ∀ nodeId ∈ nodeIds, ∃ before kind title level blockIds, PathAt level before ∧
    List.Lex (· < ·) before path ∧
    nodeId = deterministicNodeId platform documentId version before kind title level blockIds

theorem lex_append_left {r : Nat → Nat → Prop} (front : List Nat) {back back' : List Nat}
    (h : List.Lex r back back') : List.Lex r (front ++ back) (front ++ back') := by
  induction front with
  | nil => exact h
  | cons c front ih => exact .cons ih

theorem lex_trans {a b c : List Nat} (left : List.Lex (· < ·) a b)
    (right : List.Lex (· < ·) b c) : List.Lex (· < ·) a c :=
  List.lt_trans left right

namespace Earlier

variable {platform : TextPlatform} {documentId version : String} {path later : List Nat}
  {nodeIds : List String}

theorem none : Earlier platform documentId version path [] :=
  fun _ mem => absurd mem List.not_mem_nil

theorem mono (h : Earlier platform documentId version path nodeIds)
    (after : List.Lex (· < ·) path later) : Earlier platform documentId version later nodeIds := by
  intro nodeId mem
  obtain ⟨before, kind, title, level, blockIds, at_level, earlier, same⟩ := h nodeId mem
  exact ⟨before, kind, title, level, blockIds, at_level, lex_trans earlier after, same⟩

theorem fresh (h : Earlier platform documentId version path nodeIds)
    (injective : Function.Injective platform.sha256Hex) {kind : StructureNodeKind}
    {title : Option String} {level : Nat} {blockIds : List String} (at_level : PathAt level path) :
    deterministicNodeId platform documentId version path kind title level blockIds ∉ nodeIds := by
  intro mem
  obtain ⟨before, _, _, _, _, at_before, earlier, same⟩ := h _ mem
  have equal := deterministicNodeId_path injective at_level at_before same
  subst equal
  exact List.lt_irrefl _ earlier

/-- Visiting the node at `path`, before its first child. -/
theorem visit (h : Earlier platform documentId version path nodeIds) {kind : StructureNodeKind}
    {title : Option String} {level : Nat} {blockIds : List String} (at_level : PathAt level path)
    (component : Nat) :
    Earlier platform documentId version (path ++ [component])
      (deterministicNodeId platform documentId version path kind title level blockIds ::
        nodeIds) := by
  have next : List.Lex (· < ·) path (path ++ [component]) := by
    have below : List.Lex (· < ·) [] [component] := .nil
    simpa only [List.append_nil] using lex_append_left path below
  intro nodeId mem
  rcases List.mem_cons.mp mem with rfl | mem
  · exact ⟨path, kind, title, level, blockIds, at_level, next, rfl⟩
  · exact h.mono next nodeId mem

theorem leave {index component : Nat}
    (h : Earlier platform documentId version (path ++ [index] ++ [component]) nodeIds) :
    Earlier platform documentId version (path ++ [index + 1]) nodeIds := by
  refine h.mono ?_
  rw [List.append_assoc]
  exact lex_append_left path (.rel (Nat.lt_succ_self index))

end Earlier

end DocumentSummarizer.Pipeline
