import DocumentSummarizer.Pipeline.ClauseOffers

/-! # What governs a quote

A quote has the context that every clause of its wording in the block has, and
none where two differ.  Wording in front of the first number does not count, so
a segment from there takes the context of a later clause of the same wording.
-/

namespace DocumentSummarizer.Pipeline

open Library Furniture

namespace Clauses

/-- The one context that all agree on, and the empty one where they do not. -/
def agreed : List (List Char) → Option (List Char)
  | [] => none
  | first :: rest => some (if rest.all (· = first) then first else [])

theorem agreed_concat (contexts : List (List Char)) (context : List Char) :
    agreed (contexts ++ [context]) = some (match agreed contexts with
      | none => context
      | some previous => if previous = context then previous else []) := by
  cases contexts with
  | nil => rfl
  | cons first rest =>
      simp only [List.cons_append, agreed, List.all_append, List.all_cons, List.all_nil,
        Bool.and_true]
      by_cases same : rest.all (· = first) = true
      · rw [if_pos same]
        by_cases equal : context = first
        · simp [same, equal]
        · simp [same, equal, Ne.symm equal]
      · simp [same]

theorem agreed_eq_some {contexts : List (List Char)} {context : List Char}
    (visible : context ≠ []) :
    agreed contexts = some context ↔ contexts ≠ [] ∧ ∀ other ∈ contexts, other = context := by
  cases contexts with
  | nil => simp [agreed]
  | cons first rest =>
      rw [agreed, Option.some.injEq]
      by_cases same : rest.all (· = first) = true
      · rw [if_pos same]
        have all : ∀ other ∈ rest, other = first := by simpa using same
        constructor
        · rintro rfl
          refine ⟨List.cons_ne_nil _ _, fun other mem => ?_⟩
          exact (List.mem_cons.mp mem).elim id (all other)
        · exact fun h => h.2 first List.mem_cons_self
      · rw [if_neg same]
        constructor
        · exact fun empty => absurd empty.symm visible
        · rintro ⟨-, all⟩
          apply absurd _ same
          have first_eq := all first List.mem_cons_self
          simp only [List.all_eq_true, decide_eq_true_eq]
          intro other mem
          rw [first_eq, all other (List.mem_cons_of_mem _ mem)]

theorem insertContext_agreed {contexts : String × List Char → Option (List Char)}
    {key : String × List Char} {before : List (List Char)} (h : contexts key = agreed before)
    (context : List Char) :
    insertContext contexts key context key = agreed (before ++ [context]) := by
  rw [agreed_concat, ← h, insertContext]
  cases stored : contexts key with
  | none => simp
  | some previous =>
      by_cases same : previous = context
      · simp [same, stored]
      · simp [same]

theorem insertContext_other {contexts : String × List Char → Option (List Char)}
    {key other : String × List Char} (different : other ≠ key) (context : List Char) :
    insertContext contexts key context other = contexts other := by
  rw [insertContext]
  cases contexts key with
  | none => exact Function.update_of_ne different _ _
  | some previous =>
      dsimp only
      split
      · rfl
      · exact Function.update_of_ne different _ _

/-! ## Contexts -/

theorem joined_ne_nil {separator word : List Char} {words : List (List Char)}
    (mem : word ∈ words) (visible : word ≠ []) : joined separator words ≠ [] := by
  induction words with
  | nil => exact absurd mem List.not_mem_nil
  | cons first rest ih =>
      cases rest with
      | nil =>
          rw [List.mem_singleton.mp mem] at visible
          simpa [joined] using visible
      | cons next rest =>
          rw [joined_cons_cons]
          rcases List.mem_cons.mp mem with rfl | later
          · simp [visible]
          · simp [ih later]

/-- The context of the clause that a piece continues. -/
def governing (clauses : List Clause) (piece : ClausePiece) : Option (List Char) :=
  piece.clause.bind (contextOf clauses)

theorem contextOf_total {pass : ClausePass} (sound : pass.Sound) {piece : ClausePiece}
    (mem : piece ∈ pass.order) {index : Nat} (own : piece.clause = some index) :
    ∃ context, contextOf pass.clauses index = some context ∧ context ≠ [] := by
  obtain ⟨clause, stored, inside⟩ := sound.fragments piece mem index own
  have present : ∀ above ∈ clause.parents ++ [index], ∃ clause, pass.clauses[above]? = some clause := by
    intro above above_mem
    apply Option.isSome_iff_exists.mp
    rw [isSome_getElem?]
    rcases List.mem_append.mp above_mem with parent | self
    · exact sound.ancestors clause (List.mem_of_getElem? stored) above parent
    · rw [List.mem_singleton.mp self]
      exact (List.getElem?_eq_some_iff.mp stored).1
  obtain ⟨chain, found⟩ := mapM_exists (f := (pass.clauses[·]?)) present
  refine ⟨_, by rw [contextOf, stored, Option.bind_eq_bind, Option.bind_some, found]; rfl, ?_⟩
  obtain ⟨own_clause, own_mem, again⟩ := forall₂_left_exists (mapM_some_iff.mp found)
    (List.mem_append_right clause.parents List.mem_cons_self)
  obtain rfl := Option.some.inj (stored.symm.trans again)
  exact joined_ne_nil (List.mem_flatMap.mpr ⟨clause, own_mem, inside⟩)
    (sound.visible piece mem)

/-- The pieces of clauses with a wording in a block. -/
def wordedPieces (order : List ClausePiece) (blockId : String) (quote : List Char) :
    List ClausePiece :=
  order.filter fun piece => piece.blockId = blockId ∧ piece.text = quote ∧ piece.clause.isSome

section Recording

variable {tables : SentenceTables} {version : String} {clauses : List Clause}

/-- What is recorded of the pieces that the loop has gone over. -/
structure Recorded (tables : SentenceTables) (version : String) (clauses : List Clause)
    (past : List ClausePiece) (result : Clauses) : Prop where
  offered : ∀ blockId, ∃ parts, (past.filter (·.blockId = blockId)).mapM
      (pieceSegmentation tables version) = some parts ∧
    (result.segments blockId).getD [] = (allSegments parts).segments ∧
    (result.omitted blockId).getD 0 = (allSegments parts).omittedSourceUnits
  contexts : ∀ blockId quote, ∃ contexts,
    (wordedPieces past blockId quote).mapM (governing clauses) = some contexts ∧
    result.contexts (blockId, quote) = agreed contexts

theorem Recorded.nothing :
    Recorded tables version clauses [] ⟨fun _ => none, fun _ => none, fun _ => none⟩ :=
  ⟨fun _ => ⟨[], rfl, rfl, rfl⟩, fun _ _ => ⟨[], rfl, rfl⟩⟩

theorem mapM_concat {α β : Type*} {f : α → Option β} {as : List α} {bs : List β} {a : α} {b : β}
    (front : as.mapM f = some bs) (last : f a = some b) :
    (as ++ [a]).mapM f = some (bs ++ [b]) :=
  mapM_some_iff.mpr (List.rel_append (mapM_some_iff.mp front) (.cons last .nil))

theorem allSegments_concat (parts : List QuoteSegmentation) (part : QuoteSegmentation) :
    allSegments (parts ++ [part]) =
      ⟨(allSegments parts).segments ++ part.segments,
        (allSegments parts).omittedSourceUnits + part.omittedSourceUnits⟩ := by
  simp [allSegments]

theorem Recorded.offered_concat {past : List ClausePiece} {result : Clauses}
    (h : Recorded tables version clauses past result) {piece : ClausePiece}
    {part : QuoteSegmentation} (found : pieceSegmentation tables version piece = some part)
    {next : Clauses}
    (segments : next.segments = Function.update result.segments piece.blockId
      (some ((result.segments piece.blockId).getD [] ++ part.segments)))
    (omitted : ∀ blockId, (next.omitted blockId).getD 0 = (result.omitted blockId).getD 0 +
      if blockId = piece.blockId then part.omittedSourceUnits else 0) (blockId : String) :
    ∃ parts, ((past ++ [piece]).filter (·.blockId = blockId)).mapM
        (pieceSegmentation tables version) = some parts ∧
      (next.segments blockId).getD [] = (allSegments parts).segments ∧
      (next.omitted blockId).getD 0 = (allSegments parts).omittedSourceUnits := by
  obtain ⟨parts, before, held, counted⟩ := h.offered blockId
  rw [List.filter_append]
  by_cases own : piece.blockId = blockId
  · subst own
    refine ⟨parts ++ [part], ?_, ?_, ?_⟩
    · rw [List.filter_cons_of_pos (by simp), List.filter_nil]
      exact mapM_concat before found
    · rw [segments, Function.update_self, Option.getD_some, held, allSegments_concat]
    · rw [omitted, if_pos rfl, counted, allSegments_concat]
  · refine ⟨parts, ?_, ?_, ?_⟩
    · rw [List.filter_cons_of_neg (by simpa using own), List.filter_nil, List.append_nil]
      exact before
    · rw [segments, Function.update_of_ne (Ne.symm own), held]
    · rw [omitted, if_neg (Ne.symm own), Nat.add_zero, counted]

theorem record_spec {past : List ClausePiece} {result : Clauses}
    (h : Recorded tables version clauses past result) {piece : ClausePiece}
    (governed : ∀ index, piece.clause = some index →
      ∃ context, contextOf clauses index = some context) :
    ∃ next, record tables version clauses result piece = some next ∧
      Recorded tables version clauses (past ++ [piece]) next := by
  obtain ⟨part, found⟩ := pieceSegmentation_total tables version piece
  rw [record]
  cases own : piece.clause with
  | none =>
      have segmented : quoteSegmentationForVersion tables version piece.text = some part := by
        simpa [pieceSegmentation, own] using found
      simp only [segmented, Option.bind_eq_bind, Option.bind_some]
      refine ⟨_, rfl, h.offered_concat found rfl ?_, ?_⟩
      · intro blockId
        by_cases same : blockId = piece.blockId
        · subst same
          simp
        · simp [same]
      · intro blockId quote
        obtain ⟨contexts, gathered, stored⟩ := h.contexts blockId quote
        refine ⟨contexts, ?_, stored⟩
        rw [wordedPieces, List.filter_append, List.filter_cons_of_neg (by simp [own]),
          List.filter_nil, List.append_nil]
        exact gathered
  | some index =>
      obtain ⟨context, governs⟩ := governed index own
      obtain rfl : ⟨[piece.text], 0⟩ = part := by
        simpa [pieceSegmentation, own] using found
      simp only [governs, Option.bind_eq_bind, Option.bind_some]
      refine ⟨_, rfl, h.offered_concat found rfl (by simp), ?_⟩
      intro blockId quote
      obtain ⟨contexts, gathered, stored⟩ := h.contexts blockId quote
      by_cases same : (blockId, quote) = (piece.blockId, piece.text)
      · obtain ⟨rfl, rfl⟩ := Prod.mk.inj same
        refine ⟨contexts ++ [context], ?_, insertContext_agreed stored context⟩
        rw [wordedPieces, List.filter_append, List.filter_cons_of_pos (by simp [own]),
          List.filter_nil]
        apply mapM_concat gathered
        rw [governing, own, Option.bind_some, governs]
      · refine ⟨contexts, ?_, (insertContext_other same context).trans stored⟩
        rw [wordedPieces, List.filter_append, List.filter_cons_of_neg, List.filter_nil,
          List.append_nil]
        · exact gathered
        · simp only [decide_eq_true_eq]
          rintro ⟨rfl, rfl, -⟩
          exact same rfl

theorem recordAll_spec {rest past : List ClausePiece} {result : Clauses}
    (h : Recorded tables version clauses past result)
    (governed : ∀ piece ∈ rest, ∀ index, piece.clause = some index →
      ∃ context, contextOf clauses index = some context) :
    ∃ last, rest.foldlM (record tables version clauses) result = some last ∧
      Recorded tables version clauses (past ++ rest) last := by
  induction rest generalizing past result with
  | nil => exact ⟨result, rfl, by rwa [List.append_nil]⟩
  | cons piece rest ih =>
      obtain ⟨next, recorded, held⟩ := record_spec h (governed piece List.mem_cons_self)
      obtain ⟨last, others, all⟩ :=
        ih held fun piece mem => governed piece (List.mem_cons_of_mem _ mem)
      refine ⟨last, ?_, ?_⟩
      · rw [List.foldlM_cons, recorded, Option.bind_eq_bind, Option.bind_some, others]
      · rwa [List.append_assoc] at all

theorem context_iff {order : List ClausePiece} {result : Clauses}
    (h : Recorded tables version clauses order result) (blockId : String)
    (quote context : List Char) :
    result.context blockId quote = some context ↔ context ≠ [] ∧
      wordedPieces order blockId quote ≠ [] ∧
      ∀ piece ∈ wordedPieces order blockId quote, governing clauses piece = some context := by
  obtain ⟨contexts, gathered, stored⟩ := h.contexts blockId quote
  have each := mapM_some_iff.mp gathered
  have empty : contexts = [] ↔ wordedPieces order blockId quote = [] := by
    rw [← List.length_eq_zero_iff, ← List.length_eq_zero_iff, each.length_eq]
  rw [Clauses.context, stored, Option.filter_eq_some_iff]
  simp only [Bool.not_eq_true', List.isEmpty_eq_false_iff]
  constructor
  · rintro ⟨all, visible⟩
    obtain ⟨some_, same⟩ := (agreed_eq_some visible).mp all
    refine ⟨visible, mt empty.mpr some_, fun piece mem => ?_⟩
    obtain ⟨found, found_mem, governs⟩ := forall₂_left_exists each mem
    rw [governs, same found found_mem]
  · rintro ⟨visible, some_, same⟩
    refine ⟨(agreed_eq_some visible).mpr ⟨mt empty.mp some_, fun other mem => ?_⟩, visible⟩
    obtain ⟨piece, piece_mem, governs⟩ := forall₂_right_exists each mem
    exact Option.some.inj (governs.symm.trans (same piece piece_mem))

end Recording

end Clauses

end DocumentSummarizer.Pipeline
