import DocumentSummarizer.Pipeline.ClauseGovernance

/-! # Faithful clause contexts

Whether every offered segment stands in the clause whose context it takes.
-/

namespace DocumentSummarizer.Pipeline

open Library Furniture

namespace Clauses

/-- The segments that pieces offer, each with the clause that its piece continues. -/
def offers (pieces : List ClausePiece) (parts : List QuoteSegmentation) :
    List (Option Nat × List Char) :=
  (pieces.zip parts).flatMap fun offered =>
    offered.2.segments.map fun quote => (offered.1.clause, quote)

/-- A block is offered with what governs it, and nothing retained of it is lost. -/
structure Faithful (tables : SentenceTables) (version : String) (furniture : Furniture)
    (pass : ClausePass) (clauses : Clauses) (block : NormalizedBlock) : Prop where
  governed : ∃ parts, (pass.order.filter (·.blockId = block.blockId)).mapM
      (pieceSegmentation tables version) = some parts ∧
    let offered := offers (pass.order.filter (·.blockId = block.blockId)) parts
    (clauses.segment block).segments =
      (offered.map (·.2)).filter (!clauses.ambiguous block.blockId ·) ∧
    ∀ quote context, clauses.context block.blockId quote = some context →
      ∀ offer ∈ offered, offer.2 = quote →
        ∃ index, offer.1 = some index ∧ contextOf pass.clauses index = some context
  accounted : ∃ ranges tiles, furniture.retainedRanges block.blockId = some ranges ∧
    BlockAccounts block.text.toList ranges tiles (clauses.segment block)

/-- No segment in front of the first number is worded like a clause piece of the block, unless
that wording stands under two contexts there. -/
def Unrepeated (tables : SentenceTables) (version : String) (pass : ClausePass)
    (block : NormalizedBlock) : Prop :=
  ∀ piece ∈ pass.order, piece.blockId = block.blockId → piece.clause = none →
    ∀ part, quoteSegmentationForVersion tables version piece.text = some part →
      ∀ quote ∈ part.segments, ∀ other ∈ wordedPieces pass.order block.blockId quote,
        ∃ third ∈ wordedPieces pass.order block.blockId quote,
          governing pass.clauses third ≠ governing pass.clauses other

section Reading

variable {tables : SentenceTables} {unicode : Unicode} {document : NormalizedDocument}
  {version : String}

theorem filter_own {R : NormalizedBlock → List ClausePiece → Prop} {blocks : List NormalizedBlock}
    {parts : List (List ClausePiece)} (each : List.Forall₂ R blocks parts)
    (own : ∀ block part, R block part → ∀ piece ∈ part, piece.blockId = block.blockId)
    (distinct : (blocks.map (·.blockId)).Nodup) {block : NormalizedBlock} (mem : block ∈ blocks) :
    R block (parts.flatten.filter (·.blockId = block.blockId)) := by
  induction each with
  | nil => exact absurd mem List.not_mem_nil
  | @cons first part blocks parts here others ih =>
      obtain ⟨apart, distinct⟩ := List.nodup_cons.mp distinct
      rw [List.flatten_cons, List.filter_append]
      rcases List.mem_cons.mp mem with rfl | later
      · have all : part.filter (·.blockId = block.blockId) = part := by
          rw [List.filter_eq_self]
          exact fun piece piece_mem => decide_eq_true (own block part here piece piece_mem)
        have none_ : parts.flatten.filter (·.blockId = block.blockId) = [] := by
          rw [List.filter_eq_nil_iff]
          intro piece piece_mem same
          obtain ⟨group, group_mem, inside⟩ := List.mem_flatten.mp piece_mem
          obtain ⟨other, other_mem, related⟩ := forall₂_right_exists others group_mem
          rw [decide_eq_true_eq, own other group related piece inside] at same
          exact apart (List.mem_map.mpr ⟨other, other_mem, same⟩)
        rw [all, none_, List.append_nil]
        exact here
      · have none_ : part.filter (·.blockId = block.blockId) = [] := by
          rw [List.filter_eq_nil_iff]
          intro piece piece_mem same
          rw [decide_eq_true_eq, own first part here piece piece_mem] at same
          exact apart (List.mem_map.mpr ⟨block, later, same.symm⟩)
        rw [none_, List.nil_append]
        exact ih distinct later

theorem readDocument_spec (identified : document.Identified) (policy : FurniturePolicy) :
    ∃ furniture pass, forPolicy unicode document policy = some furniture ∧
      readDocument unicode document furniture = some pass ∧ pass.Sound ∧
      ∀ block ∈ document.blocks, ∃ ranges, furniture.retainedRanges block.blockId = some ranges ∧
        ranges.Pairwise (fun a b => a.2 ≤ b.1) ∧
        BlockPieces block ranges (pass.order.filter (·.blockId = block.blockId)) := by
  obtain ⟨all, computed, traced⟩ := candidates_spec unicode document policy
  obtain ⟨furniture, found, retained, -⟩ := forPolicy_spec identified computed traced
  have whole : ∀ block ∈ document.blocks,
      WholeLines block.text.toList (blockRanges all block) := by
    intro block mem
    obtain ⟨page, page_mem, block_mem⟩ := List.mem_flatMap.mp mem
    exact blockRanges_wholeLines identified page_mem block_mem traced
  obtain ⟨pass, parts, read, sound, order, each⟩ :=
    @readBlocks_spec unicode ⟨[], [], none, []⟩ ⟨nofun, nofun, nofun, nofun, nofun⟩ furniture
      document.blocks (blockRanges all) retained
      fun block mem range range_mem => ((whole block mem).sliced range range_mem).2
  refine ⟨furniture, pass, found, read, sound, fun block mem =>
    ⟨blockRanges all block, retained block mem, (whole block mem).ascending, ?_⟩⟩
  rw [order, List.nil_append]
  exact filter_own each (fun _ _ placed => blockPieces_own placed) identified.blocks mem

theorem offers_texts {pieces : List ClausePiece} {parts : List QuoteSegmentation}
    (each : List.Forall₂ (fun piece part => pieceSegmentation tables version piece = some part)
      pieces parts) :
    (offers pieces parts).map (·.2) = (allSegments parts).segments := by
  induction each with
  | nil => rfl
  | cons _ _ ih =>
      simp only [offers, allSegments] at ih ⊢
      simp [ih]

theorem mem_offers {pieces : List ClausePiece} {parts : List QuoteSegmentation}
    (found : pieces.mapM (pieceSegmentation tables version) = some parts)
    {offer : Option Nat × List Char} :
    offer ∈ offers pieces parts ↔ ∃ piece ∈ pieces, piece.clause = offer.1 ∧
      ∃ part, pieceSegmentation tables version piece = some part ∧ offer.2 ∈ part.segments := by
  obtain ⟨sound, complete⟩ := mapM_zip found
  rw [offers, List.mem_flatMap]
  constructor
  · rintro ⟨pair, pair_mem, inside⟩
    obtain ⟨quote, quote_mem, rfl⟩ := List.mem_map.mp inside
    obtain ⟨piece_mem, segmented⟩ := sound pair pair_mem
    exact ⟨pair.1, piece_mem, rfl, pair.2, segmented, quote_mem⟩
  · rintro ⟨piece, piece_mem, own, part, segmented, quote_mem⟩
    obtain ⟨stored, pair_mem⟩ := complete piece piece_mem
    obtain rfl := Option.some.inj (segmented.symm.trans (sound _ pair_mem).2)
    exact ⟨(piece, part), pair_mem, List.mem_map.mpr ⟨offer.2, quote_mem, by rw [own]⟩⟩

theorem mem_wordedPieces {order : List ClausePiece} {blockId : String} {quote : List Char}
    {piece : ClausePiece} : piece ∈ wordedPieces order blockId quote ↔
      piece ∈ order ∧ piece.blockId = blockId ∧ piece.text = quote ∧
        piece.clause.isSome = true := by
  simp [wordedPieces]

/-- Where no wording is repeated every offer stands in a clause of its context. -/
theorem governed_iff {pass : ClausePass} {clauses : Clauses} (sound : pass.Sound)
    (recorded : Recorded tables version pass.clauses pass.order clauses)
    {block : NormalizedBlock} {parts : List QuoteSegmentation}
    (found : (pass.order.filter (·.blockId = block.blockId)).mapM
      (pieceSegmentation tables version) = some parts) :
    (∀ quote context, clauses.context block.blockId quote = some context →
      ∀ offer ∈ offers (pass.order.filter (·.blockId = block.blockId)) parts, offer.2 = quote →
        ∃ index, offer.1 = some index ∧ contextOf pass.clauses index = some context) ↔
      Unrepeated tables version pass block := by
  constructor
  · intro governed piece mem own unnumbered part segmented quote quote_mem other other_mem
    by_contra alike
    push Not at alike
    obtain ⟨other_order, -, -, numbered⟩ := mem_wordedPieces.mp other_mem
    obtain ⟨index, other_clause⟩ := Option.isSome_iff_exists.mp numbered
    obtain ⟨context, governs, visible⟩ := contextOf_total sound other_order other_clause
    have other_context : governing pass.clauses other = some context := by
      rw [governing, other_clause, Option.bind_some, governs]
    have given : clauses.context block.blockId quote = some context :=
      (context_iff recorded block.blockId quote context).mpr
        ⟨visible, List.ne_nil_of_mem other_mem,
          fun third third_mem => (alike third third_mem).trans other_context⟩
    have offered : (none, quote) ∈
        offers (pass.order.filter (·.blockId = block.blockId)) parts := by
      refine (mem_offers found).mpr ⟨piece, ?_, unnumbered, part, ?_, quote_mem⟩
      · exact List.mem_filter.mpr ⟨mem, decide_eq_true own⟩
      · rw [pieceSegmentation, unnumbered]
        exact segmented
    obtain ⟨_, absent, -⟩ := governed quote context given _ offered rfl
    cases absent
  · rintro apart quote context given offer offer_mem rfl
    obtain ⟨-, some_, alike⟩ := (context_iff recorded block.blockId offer.2 context).mp given
    obtain ⟨piece, piece_mem, own, part, segmented, quote_mem⟩ := (mem_offers found).mp offer_mem
    obtain ⟨mem, here⟩ := List.mem_filter.mp piece_mem
    have here := of_decide_eq_true here
    cases numbered : piece.clause with
    | none =>
        obtain ⟨other, other_mem⟩ := List.exists_mem_of_ne_nil _ some_
        rw [pieceSegmentation, numbered] at segmented
        obtain ⟨third, third_mem, differs⟩ :=
          apart piece mem here numbered part segmented offer.2 quote_mem other other_mem
        exact absurd ((alike third third_mem).trans (alike other other_mem).symm) differs
    | some index =>
        rw [pieceSegmentation, numbered] at segmented
        obtain rfl := Option.some.inj segmented
        have worded : piece ∈ wordedPieces pass.order block.blockId offer.2 :=
          mem_wordedPieces.mpr ⟨mem, here, (List.mem_singleton.mp quote_mem).symm,
            by rw [numbered]; rfl⟩
        have governs := alike piece worded
        rw [governing, numbered, Option.bind_some] at governs
        exact ⟨index, own.symm.trans numbered, governs⟩

theorem faithful_iff (tables : SentenceTables) (identified : document.Identified)
    (policy : FurniturePolicy) (version : String) :
    ∃ furniture pass clauses, forPolicy tables.unicode document policy = some furniture ∧
      readDocument tables.unicode document furniture = some pass ∧
      ofDocument tables version document furniture = some clauses ∧
      ∀ block ∈ document.blocks, Faithful tables version furniture pass clauses block ↔
        Unrepeated tables version pass block := by
  obtain ⟨furniture, pass, found, read, sound, blocks⟩ :=
    @readDocument_spec tables.unicode document identified policy
  obtain ⟨clauses, all, recorded⟩ := @recordAll_spec tables version pass.clauses pass.order [] _
    .nothing fun piece mem index own => (contextOf_total sound mem own).imp fun _ both => both.1
  rw [List.nil_append] at recorded
  refine ⟨furniture, pass, clauses, found, read, ?_, fun block mem => ?_⟩
  · rw [ofDocument, read, Option.bind_eq_bind, Option.bind_some, all]
  obtain ⟨ranges, retained, ascending, placed⟩ := blocks block mem
  obtain ⟨parts, segmented, segments, omitted⟩ := recorded.offered block.blockId
  have equivalent := governed_iff sound recorded segmented
  constructor
  · rintro ⟨⟨again, same, -, governed⟩, -⟩
    obtain rfl := Option.some.inj (segmented.symm.trans same)
    exact equivalent.mp governed
  · intro apart
    refine ⟨⟨parts, segmented, ?_, equivalent.mpr apart⟩, ranges, ?_⟩
    · rw [Clauses.segment, segments, offers_texts (mapM_some_iff.mp segmented)]
    · obtain ⟨tiles, accounts⟩ := blockPieces_accounts placed ascending segmented
      have withheld := accounts.withhold (clauses.ambiguous block.blockId)
      refine ⟨tiles.map (·.withhold (clauses.ambiguous block.blockId)), retained, ?_⟩
      rw [Clauses.segment, segments, omitted]
      exact withheld

/-- A document is offered with faithful contexts exactly when no block repeats, in front of the
first number, the wording of one of its clause pieces. -/
theorem clause_context_faithful (tables : SentenceTables) (identified : document.Identified)
    (policy : FurniturePolicy) (version : String) :
    ∃ furniture pass clauses, forPolicy tables.unicode document policy = some furniture ∧
      readDocument tables.unicode document furniture = some pass ∧
      ofDocument tables version document furniture = some clauses ∧
      ((∀ block ∈ document.blocks, Faithful tables version furniture pass clauses block) ↔
        ∀ block ∈ document.blocks, Unrepeated tables version pass block) := by
  obtain ⟨furniture, pass, clauses, found, read, made, each⟩ :=
    faithful_iff tables identified policy version
  exact ⟨furniture, pass, clauses, found, read, made, forall₂_congr each⟩

end Reading

/-- A block whose first line is worded like no clause. -/
def termsDocument : NormalizedDocument :=
  { noticeDocument with pages := [noticePage 1 "Terms.\n\n1. Only In May.\n\nFees apply."] }

theorem termsDocument_read : (forPolicy .ascii termsDocument .runningMetadata).bind
    (fun furniture => (readDocument .ascii termsDocument furniture).map (·.order)) = some
    [⟨"1", none, "Terms.".toList⟩, ⟨"1", some 0, "1. Only In May.\n\nFees apply.".toList⟩] := by
  decide +kernel

theorem clause_context_faithful_of_terms :
    ∃ furniture pass clauses,
      forPolicy .ascii termsDocument .runningMetadata = some furniture ∧
      readDocument .ascii termsDocument furniture = some pass ∧
      ofDocument .ascii analysisVersion termsDocument furniture = some clauses ∧
      ∀ block ∈ termsDocument.blocks,
        Faithful .ascii analysisVersion furniture pass clauses block := by
  obtain ⟨furniture, pass, clauses, found, read, made, faithful⟩ := @clause_context_faithful
    termsDocument .ascii ⟨by decide, by decide⟩ .runningMetadata analysisVersion
  refine ⟨furniture, pass, clauses, found, read, made, faithful.mpr ?_⟩
  have order := termsDocument_read
  change forPolicy Unicode.ascii _ _ = _ at found
  change readDocument Unicode.ascii _ _ = _ at read
  rw [found, Option.bind_some, read, Option.map_some, Option.some.injEq] at order
  intro block mem piece piece_mem own free part cut quote quote_mem other worded
  simp only [wordedPieces, order, List.mem_filter, List.mem_cons, List.not_mem_nil, or_false,
    decide_eq_true_eq] at piece_mem worded
  obtain rfl | rfl := piece_mem
  · obtain rfl : ⟨["Terms.".toList], 0⟩ = part := Option.some.inj (cut ▸ by decide +kernel)
    obtain rfl := List.mem_singleton.mp quote_mem
    obtain ⟨rfl | rfl, -, same, clause⟩ := worded
    · cases clause
    · cases same
  · cases free

/-- A block that two notices cut, with the same wording before its clause and at its end. -/
def repeatedDocument : NormalizedDocument :=
  { noticeDocument with pages := [
    noticePage 1 ("Fees apply.\n\nCopyright A\nRights reserved. Trademark A.\n\n1. Only In May." ++
      "\n\nCopyright A\nRights reserved. Trademark A.\n\nFees apply."),
    noticePage 2 "Copyright A\nRights reserved. Trademark A.\n\nBody."] }

theorem repeatedDocument_read : (forPolicy .ascii repeatedDocument .runningMetadata).bind
    (fun furniture => (readDocument .ascii repeatedDocument furniture).map fun pass =>
      (pass.clauses, pass.order)) = some
    ([⟨['1'], [], ["1. Only In May.".toList, "Fees apply.".toList, "Body.".toList]⟩],
      [⟨"1", none, "Fees apply.".toList⟩, ⟨"1", some 0, "1. Only In May.".toList⟩,
        ⟨"1", some 0, "Fees apply.".toList⟩, ⟨"2", some 0, "Body.".toList⟩]) := by
  decide +kernel

/-- The wording in front of the clause takes the context of the clause. -/
theorem repeated_wording_takes_context :
    ∃ furniture pass clauses,
      forPolicy .ascii repeatedDocument .runningMetadata = some furniture ∧
      readDocument .ascii repeatedDocument furniture = some pass ∧
      ofDocument .ascii analysisVersion repeatedDocument furniture = some clauses ∧
      ¬∀ block ∈ repeatedDocument.blocks,
        Faithful .ascii analysisVersion furniture pass clauses block := by
  obtain ⟨furniture, pass, clauses, found, read, made, each⟩ :=
    @faithful_iff repeatedDocument .ascii ⟨by decide, by decide⟩ .runningMetadata analysisVersion
  refine ⟨furniture, pass, clauses, found, read, made, fun faithful => ?_⟩
  have whole := repeatedDocument_read
  change forPolicy Unicode.ascii _ _ = _ at found
  change readDocument Unicode.ascii _ _ = _ at read
  rw [found, Option.bind_some, read, Option.map_some, Option.some.injEq, Prod.mk.injEq] at whole
  obtain ⟨-, order⟩ := whole
  obtain ⟨block, rest, blocks, own⟩ : ∃ (block : NormalizedBlock) (rest : List NormalizedBlock),
      repeatedDocument.blocks = block :: rest ∧ block.blockId = "1" := ⟨_, _, rfl, rfl⟩
  have block_mem : block ∈ repeatedDocument.blocks := blocks ▸ List.mem_cons_self
  have unrepeated := (each block block_mem).mp (faithful block block_mem)
  have worded : wordedPieces pass.order block.blockId "Fees apply.".toList =
      [⟨"1", some 0, "Fees apply.".toList⟩] := by
    rw [order, own]
    decide +kernel
  obtain ⟨third, third_mem, differs⟩ := unrepeated ⟨"1", none, "Fees apply.".toList⟩
    (order ▸ List.mem_cons_self) own.symm rfl ⟨["Fees apply.".toList], 0⟩ (by decide +kernel)
    "Fees apply.".toList List.mem_cons_self _ (worded ▸ List.mem_cons_self)
  rw [worded] at third_mem
  exact differs (congrArg _ (List.mem_singleton.mp third_mem))

end Clauses

end DocumentSummarizer.Pipeline
