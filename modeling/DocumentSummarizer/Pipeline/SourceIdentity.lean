import DocumentSummarizer.Pipeline.Normalize
import DocumentSummarizer.Pipeline.Structure

/-! # Identities of a normalized document

What the normalizer guarantees of the numbers and block identities that later
stages look pages and blocks up by.
-/

namespace DocumentSummarizer.Pipeline

open Library

/-- The pages ascend and no two blocks share an identity. -/
structure NormalizedDocument.Identified (document : NormalizedDocument) : Prop where
  pages : (document.pages.map (·.pageNumber)).Pairwise (· < ·)
  blocks : (document.blocks.map (·.blockId)).Nodup

section Identified

variable {platform : TextPlatform} {parsed : ParsedDocument} {normalized : NormalizedDocument}

theorem validateNormalizedBlocks_distinct {page : NormalizedPage} {text : String}
    {blocks : List NormalizedBlock} {position : Nat} {seen all : List String}
    (h : validateNormalizedBlocks platform normalized parsed page text position seen blocks =
      .ok all) (distinct : seen.Nodup) :
    all.Nodup ∧ all = (blocks.map (·.blockId)).reverse ++ seen := by
  induction blocks generalizing position seen with
  | nil =>
      rw [validateNormalizedBlocks, return_ok] at h
      exact h ▸ ⟨distinct, rfl⟩
  | cons block rest ih =>
      simp only [validateNormalizedBlocks, peel_ok, refuseIf_eq_ok, not_or] at h
      obtain ⟨_, -, _, fresh, _, -, _, -, later⟩ := h
      obtain ⟨nodup, rfl⟩ := ih later (List.nodup_cons.mpr ⟨fresh.2, distinct⟩)
      refine ⟨nodup, ?_⟩
      simp

theorem validateNormalizedPages_distinct {pairs : List (NormalizedPage × ParsedPage)}
    {seen : List String}
    (h : validateNormalizedPages platform normalized parsed seen pairs = .ok ())
    (distinct : seen.Nodup) :
    (((pairs.map (·.1)).flatMap (·.content)).map (·.blockId) ++ seen).Nodup := by
  induction pairs generalizing seen with
  | nil => exact distinct
  | cons pair rest ih =>
      obtain ⟨page, source⟩ := pair
      simp only [validateNormalizedPages, peel_ok, refuseIf_eq_ok] at h
      obtain ⟨_, -, _, -, _, -, _, -, validated⟩ := h
      simp only [List.map_cons, List.flatMap_cons, List.map_append]
      by_cases blank : isBlank (cleanText source.text).1 = true
      · simp only [blank, if_true, peel_ok, refuseIf_eq_ok, not_not] at validated
        obtain ⟨_, empty, later⟩ := validated
        rw [empty]
        exact ih later distinct
      · simp only [blank, if_false, peel_ok, refuseIf_eq_ok, not_not, Bool.false_eq_true]
          at validated
        obtain ⟨_, -, all, here, later⟩ := validated
        obtain ⟨nodup, rfl⟩ := validateNormalizedBlocks_distinct here distinct
        have tail := ih later nodup
        apply (List.Perm.nodup_iff ?_).mp tail
        rw [← List.append_assoc]
        apply List.Perm.append_right
        apply List.perm_append_comm.trans
        exact (List.reverse_perm _).append_right _

theorem identified_of_normalize (h : normalize platform parsed = .ok normalized) :
    normalized.Identified := by
  have accepted := accepted_of_normalize h
  simp only [normalize, peel_ok, return_ok] at h
  obtain ⟨_, -, pages, -, _, validated, rfl⟩ := h
  have lengths := accepted.shape
  simp only [validateNormalizedDocument, peel_ok, refuseIf_eq_ok, not_not] at validated
  obtain ⟨_, -, _, -, _, long, _, -, paged⟩ := validated
  constructor
  · rw [List.pairwise_iff_getElem]
    intro i j hi hj less
    simp only [List.length_map] at hi hj
    have number : ∀ (k : Nat) (hk : k < pages.length), (pages[k]).pageNumber = k + 1 := by
      intro k hk
      have whole := congrArg NormalizedDocument.pages lengths
      simp only at whole
      have inside : k < parsed.pages.length := by
        rw [← long]
        exact hk
      have source := accepted.ordered k parsed.pages[k] (List.getElem?_eq_getElem inside)
      simp only [whole, List.getElem_map]
      exact source
    simp only [List.getElem_map, number i hi, number j hj]
    omega
  · have distinct := validateNormalizedPages_distinct paged List.nodup_nil
    rw [List.append_nil, List.map_fst_zip (by exact long.le)] at distinct
    exact distinct

end Identified

end DocumentSummarizer.Pipeline
