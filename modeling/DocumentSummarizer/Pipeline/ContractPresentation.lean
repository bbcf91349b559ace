import DocumentSummarizer.Pipeline.Composition
import DocumentSummarizer.Pipeline.ContractRecords
import DocumentSummarizer.Pipeline.ContractRendering

/-! # What a contract view presents

The selected sections under their key terms, then every clause once; each with
its identity, its source text and its pages.
-/

namespace DocumentSummarizer.Pipeline

open Library Furniture

abbrev ClauseRecord := ExtractedContractClause × List EvidenceItem

/-- The line of a claim with the pages of its evidence. -/
def citedLine (record : ClauseRecord) : String :=
  record.1.text ++ " " ++ citationLabel (withoutRepeats
    ((record.2.map (·.sourceSpan)).insertionSort fun a b => spanLe a b = true))

/-- A clause as the view shows it. -/
def shownClause (record : ClauseRecord) : String :=
  record.1.clauseId ++ "\n" ++ citedLine record

/-- The texts of the view that are no clause. -/
def viewHeadings : List String :=
  ["", "Key terms", "Full clause list"] ++ ContractTermCategory.all.map (·.label) ++
    ContractTermCategory.all.map (·.label ++ ": not identified")

/-- The unit shows clauses of the contract in full, after headings. -/
def ShowsClauses (built : List ClauseRecord) (unit : RenderUnit) : Prop :=
  ∃ (headings : List String) (shown : List ClauseRecord),
    (∀ heading ∈ headings, heading ∈ viewHeadings) ∧ (∀ record ∈ shown, record ∈ built) ∧
    unit.clauseIds = shown.map (·.1.clauseId) ∧
    unit.text = "\n\n".intercalate (headings ++ shown.map shownClause)

/-- The view of a contract: the units of the key terms, then one unit for every clause. -/
structure Presents (built : List ClauseRecord) (keyTerms : List ContractKeyTerm)
    (units : List RenderUnit) : Prop where
  parts : ∃ terms list, units = terms ++ list ∧
    terms.map (·.clauseIds) = keyTerms.flatMap (·.selections.map (·.clauseIds)) ∧
    list.map (·.clauseIds) = built.map fun record => [record.1.clauseId]
  texts : ∀ unit ∈ units, ShowsClauses built unit

/-! ## Pending headings -/

section Pending

/-- What is pending is made of headings. -/
def Heads (pending : String) : Prop :=
  ∃ headings, (∀ heading ∈ headings, heading ∈ viewHeadings) ∧
    pending = "\n\n".intercalate headings

theorem Heads.empty : Heads "" :=
  ⟨[], by simp, rfl⟩

theorem Heads.more {pending heading : String} (h : Heads pending)
    (known : heading ∈ viewHeadings) : Heads (pending ++ "\n\n" ++ heading) := by
  obtain ⟨headings, all, rfl⟩ := h
  cases headings with
  | nil =>
      refine ⟨["", heading], ?_, by simp⟩
      intro other mem
      rcases List.mem_cons.mp mem with rfl | last
      · exact List.mem_cons_self
      · exact List.mem_singleton.mp last ▸ known
  | cons first rest =>
      refine ⟨first :: rest ++ [heading], ?_, ?_⟩
      · intro other mem
        rcases List.mem_append.mp mem with old | last
        · exact all other old
        · exact List.mem_singleton.mp last ▸ known
      · rw [String.intercalate_append_of_ne_nil (List.cons_ne_nil _ _) (List.cons_ne_nil _ _),
          String.intercalate_singleton]

/-- Clauses after what is pending. -/
theorem Heads.after {pending : String} (h : Heads pending) {lines : List String}
    (nonempty : lines ≠ []) :
    ∃ headings, (∀ heading ∈ headings, heading ∈ viewHeadings) ∧
      afterPending pending ("\n\n".intercalate lines) = "\n\n".intercalate (headings ++ lines) := by
  unfold afterPending
  split
  next => exact ⟨[], by simp, rfl⟩
  next visible =>
    obtain ⟨headings, all, rfl⟩ := h
    refine ⟨headings, all, ?_⟩
    rw [String.intercalate_append_of_ne_nil _ nonempty]
    rintro rfl
    exact visible rfl

theorem label_known (category : ContractTermCategory) :
    category.label ∈ viewHeadings ∧ category.label ++ ": not identified" ∈ viewHeadings := by
  cases category <;> decide

end Pending

/-! ## Units -/

section Units

variable {built : List ClauseRecord} {byId : List (String × String)}
  (distinct : (built.map (·.1.clauseId)).Nodup)
  (table : byId = built.map fun record => (record.1.clauseId, shownClause record))

include distinct table

theorem lookup_shown {record : ClauseRecord} (mem : record ∈ built) :
    byId.lookup record.1.clauseId = some (shownClause record) := by
  subst table
  apply lookup_of_mem
  · rw [List.map_map]
    exact distinct
  · exact List.mem_map_of_mem (f := fun record : ClauseRecord =>
      (record.1.clauseId, shownClause record)) mem

theorem quotedLines_spec {shown : List ClauseRecord} (inside : ∀ record ∈ shown, record ∈ built)
    {seen : List String} (fresh : (shown.map (·.1.clauseId)).Nodup)
    (apart : ∀ id ∈ shown.map (·.1.clauseId), id ∉ seen) :
    quotedLines byId seen (shown.map (·.1.clauseId)) = .ok (shown.map shownClause) := by
  induction shown generalizing seen with
  | nil => rfl
  | cons record rest ih =>
      obtain ⟨first, later⟩ := List.nodup_cons.mp fresh
      have tail := @ih (fun other mem => inside other (List.mem_cons_of_mem _ mem))
        (record.1.clauseId :: seen) later (by
          intro id mem
          rw [List.mem_cons, not_or]
          refine ⟨?_, apart id (List.mem_cons_of_mem _ mem)⟩
          rintro rfl
          exact first mem)
      rw [List.map_cons, quotedLines, refuseIf_of_not (apart _ List.mem_cons_self),
        lookup_shown distinct table (inside record List.mem_cons_self), List.map_cons]
      rw [ok_then, ok_bind (okOrElse_some _), tail]
      rfl

/-- A selection that can be shown: its root first, and each of its clauses once. -/
def Showable (built : List ClauseRecord) (selection : ContractSectionSelection) : Prop :=
  selection.clauseIds.head? = some selection.rootClauseId ∧ selection.clauseIds.Nodup ∧
    ∀ id ∈ selection.clauseIds, id ∈ built.map (·.1.clauseId)

omit distinct table in
theorem shown_of_ids {ids : List String}
    (known : ∀ id ∈ ids, id ∈ built.map (·.1.clauseId)) :
    ∃ shown : List ClauseRecord, (∀ record ∈ shown, record ∈ built) ∧
      ids = shown.map (·.1.clauseId) := by
  induction ids with
  | nil => exact ⟨[], by simp, rfl⟩
  | cons id rest ih =>
      obtain ⟨shown, inside, rfl⟩ := ih fun other mem => known other (List.mem_cons_of_mem _ mem)
      obtain ⟨record, mem, rfl⟩ := List.mem_map.mp (known id List.mem_cons_self)
      refine ⟨record :: shown, ?_, rfl⟩
      intro other other_mem
      rcases List.mem_cons.mp other_mem with rfl | later
      · exact mem
      · exact inside other later

theorem selectionUnits_spec {selections : List ContractSectionSelection} {pending : String}
    (heads : Heads pending) (showable : ∀ selection ∈ selections, Showable built selection) :
    ∃ left units, selectionUnits byId pending selections = .ok (left, units) ∧ Heads left ∧
      units.map (·.clauseIds) = selections.map (·.clauseIds) ∧
      ∀ unit ∈ units, ShowsClauses built unit := by
  induction selections generalizing pending with
  | nil => exact ⟨pending, [], rfl, heads, rfl, by simp⟩
  | cons selection rest ih =>
      obtain ⟨first, fresh, known⟩ := showable selection List.mem_cons_self
      obtain ⟨shown, inside, ids⟩ := shown_of_ids known
      obtain ⟨left, units, computed, heads', same, texts⟩ :=
        ih .empty fun other mem => showable other (List.mem_cons_of_mem _ mem)
      have quoted := quotedLines_spec distinct table inside (ids ▸ fresh)
        (fun _ _ => @List.not_mem_nil _ _)
      rw [← ids] at quoted
      refine ⟨left, ⟨afterPending pending ("\n\n".intercalate (shown.map shownClause)),
        selection.clauseIds⟩ :: units, ?_, heads', ?_, ?_⟩
      · rw [selectionUnits, refuseIf_of_not (not_not.mpr first), quoted, computed]
        rfl
      · rw [List.map_cons, List.map_cons, same]
      · intro unit mem
        rcases List.mem_cons.mp mem with rfl | later
        · have nonempty : shown.map shownClause ≠ [] := by
            intro empty
            rw [List.map_eq_nil_iff] at empty
            rw [ids, empty] at first
            cases first
          obtain ⟨headings, all, text⟩ := heads.after nonempty
          exact ⟨headings, shown, all, inside, ids, text⟩
        · exact texts unit later

theorem termUnits_spec {terms : List ContractKeyTerm} {pending : String} (heads : Heads pending)
    (showable : ∀ term ∈ terms, ∀ selection ∈ term.selections, Showable built selection) :
    ∃ left units, termUnits byId pending terms = .ok (left, units) ∧ Heads left ∧
      units.map (·.clauseIds) = terms.flatMap (·.selections.map (·.clauseIds)) ∧
      ∀ unit ∈ units, ShowsClauses built unit := by
  induction terms generalizing pending with
  | nil => exact ⟨pending, [], rfl, heads, rfl, by simp⟩
  | cons term rest ih =>
      have later := fun other mem => showable other (List.mem_cons_of_mem _ mem)
      obtain ⟨label, absent⟩ := label_known term.category
      unfold termUnits
      split
      next none =>
        obtain ⟨left, units, computed, heads', same, texts⟩ :=
          @ih (pending ++ "\n\n" ++ term.category.label ++ ": not identified")
            (by rw [String.append_assoc]; exact heads.more absent) later
        exact ⟨left, units, computed, heads', by rw [same, List.flatMap_cons, none]; rfl, texts⟩
      next =>
        obtain ⟨middle, own, first, heads', own_ids, own_texts⟩ :=
          selectionUnits_spec distinct table (heads.more label)
            (showable term List.mem_cons_self)
        obtain ⟨left, units, computed, heads'', same, texts⟩ := ih heads' later
        refine ⟨left, own ++ units, ?_, heads'', ?_, ?_⟩
        · rw [first, ok_then]
          simp only [computed, ok_then]
          rfl
        · rw [List.map_append, own_ids, same, List.flatMap_cons]
        · intro unit mem
          rcases List.mem_append.mp mem with old | new
          · exact own_texts unit old
          · exact texts unit new

theorem listUnits_spec {records : List ClauseRecord} {pending : String} (heads : Heads pending)
    (inside : ∀ record ∈ records, record ∈ built) :
    ∃ units, listUnits byId pending (records.map (·.1)) = .ok units ∧
      units.map (·.clauseIds) = records.map (fun record => [record.1.clauseId]) ∧
      ∀ unit ∈ units, ShowsClauses built unit := by
  induction records generalizing pending with
  | nil => exact ⟨[], rfl, rfl, by simp⟩
  | cons record rest ih =>
      obtain ⟨units, computed, same, texts⟩ :=
        ih .empty fun other mem => inside other (List.mem_cons_of_mem _ mem)
      have mem := inside record List.mem_cons_self
      refine ⟨⟨afterPending pending (shownClause record), [record.1.clauseId]⟩ :: units,
        ?_, ?_, ?_⟩
      · rw [List.map_cons, listUnits, lookup_shown distinct table mem, ok_bind (okOrElse_some _),
          computed]
        rfl
      · rw [List.map_cons, List.map_cons, same]
      · intro unit unit_mem
        rcases List.mem_cons.mp unit_mem with rfl | later
        · obtain ⟨headings, all, text⟩ := @heads.after _ [shownClause record] nofun
          rw [String.intercalate_singleton] at text
          refine ⟨headings, [record], all, ?_, rfl, text⟩
          intro other other_mem
          exact List.mem_singleton.mp other_mem ▸ mem
        · exact texts unit later

end Units

/-! ## The view -/

section View

variable {platform : TextPlatform} {unicode : Unicode} {normalized : NormalizedDocument}
  {chunked : ChunkedDocument} {sources : List SourceClause} {built : List ClauseRecord}
  {keyTerms : List ContractKeyTerm} {evidence : List EvidenceItem}

theorem renderClaimLine_spec {record : ClauseRecord}
    (ids : record.1.evidenceIds = record.2.map (·.evidenceId))
    (held : ∀ item ∈ record.2, findEvidence evidence item.evidenceId = some item) :
    renderClaimLine evidence ⟨record.1.clauseId, record.1.text, record.1.evidenceIds⟩ =
      .ok (citedLine record) := by
  have spans : (record.1.evidenceIds.mapM fun evidenceId => do
      let item ← okOrElse (findEvidence evidence evidenceId)
        (stageFailure .synthesize "INVALID_SYNTHESIZED_DOCUMENT"
          "A claim references unknown evidence" false)
      return item.sourceSpan) = .ok (record.2.map (·.sourceSpan)) := by
    rw [ids, mapM_ok_iff, List.forall₂_map_left_iff, List.forall₂_map_right_iff,
      List.forall₂_same]
    intro item mem
    rw [held item mem]
    rfl
  rw [renderClaimLine, spans]
  rfl

theorem clauseLines_spec {records : List ClauseRecord} {before : List (String × String)}
    (distinct : (before.map (·.1) ++ records.map (·.1.clauseId)).Nodup) :
    clauseLines before (records.map fun record =>
        (record.1, ⟨record.1.clauseId, record.1.text, record.1.evidenceIds⟩, citedLine record)) =
      .ok (before ++ records.map fun record => (record.1.clauseId, shownClause record)) := by
  induction records generalizing before with
  | nil => simp [clauseLines]
  | cons record rest ih =>
      have fresh : record.1.clauseId ∉ before.map (·.1) := fun mem =>
        (List.nodup_append.mp distinct).2.2 _ mem _ (List.mem_cons_self) rfl
      have tail := @ih (before ++ [(record.1.clauseId, shownClause record)]) (by
        simpa using distinct)
      rw [List.map_cons, clauseLines, refuseIf_of_not (by simpa using fresh), ok_then]
      refine tail.trans ?_
      rw [List.map_cons, List.append_assoc, List.singleton_append]

theorem showable_of_faithful {term : ContractKeyTerm}
    (distinct : (built.map (·.1.clauseId)).Nodup)
    (faithful : FaithfulTerm sources (built.map (·.1)) term)
    {selection : ContractSectionSelection} (mem : selection ∈ term.selections) :
    Showable built selection := by
  have part : selection.clauseIds.Sublist (built.map (·.1.clauseId)) := by
    have within : selection.clauseIds.Sublist (term.selections.flatMap (·.clauseIds)) := by
      rw [List.flatMap_def]
      exact List.sublist_flatten_of_mem (List.mem_map_of_mem mem)
    have ordered := faithful.ordered
    rw [List.map_map] at ordered
    exact within.trans ordered
  refine ⟨?_, distinct.sublist part, fun id inside => part.subset inside⟩
  obtain ⟨root, members, whole⟩ := faithful.whole selection mem
  obtain ⟨rest, -, rfl⟩ := Option.map_eq_some_iff.mp whole.found
  obtain ⟨id, ids, first, -, same⟩ :=
    List.forall₂_cons_left_iff.mp (mapM_some_iff.mp whole.ids)
  rw [same, List.head?_cons, ← whole.rootId, ← first]

/-- The view of the records can be rendered, and presents every clause. -/
theorem renderUnits_spec (distinct : (built.map (·.1.clauseId)).Nodup)
    (extracts : Extracts platform chunked normalized sources built keyTerms)
    (held : ∀ record ∈ built, ∀ item ∈ record.2,
      findEvidence evidence item.evidenceId = some item) :
    ∃ units, renderUnits ⟨built.map (·.1), keyTerms⟩
        (contractClaims ⟨built.map (·.1), keyTerms⟩) evidence = .ok units ∧
      Presents built keyTerms units := by
  have claims : contractClaims ⟨built.map (·.1), keyTerms⟩ = built.map fun record =>
      ⟨record.1.clauseId, record.1.text, record.1.evidenceIds⟩ := by
    rw [contractClaims, List.map_map]
    rfl
  have lines : renderClaimLines (contractClaims ⟨built.map (·.1), keyTerms⟩) evidence =
      .ok (built.map citedLine) := by
    rw [claims, renderClaimLines, mapM_ok_iff, List.forall₂_map_left_iff,
      List.forall₂_map_right_iff, List.forall₂_same]
    intro record mem
    obtain ⟨source, -, copies⟩ := forall₂_right_exists extracts.copies mem
    exact renderClaimLine_spec copies.evidenceIds (held record mem)
  have table := @clauseLines_spec built [] (by simpa using distinct)
  have zipped : (built.map (·.1)).zip ((contractClaims ⟨built.map (·.1), keyTerms⟩).zip
      (built.map citedLine)) = built.map fun record =>
        (record.1, ⟨record.1.clauseId, record.1.text, record.1.evidenceIds⟩,
          citedLine record) := by
    rw [claims, List.zip_map', List.zip_map']
  obtain ⟨left, terms, first, heads, term_ids, term_texts⟩ :=
    termUnits_spec distinct rfl
      (show Heads "Key terms" from ⟨["Key terms"], by simp [viewHeadings], by simp⟩)
      fun term mem selection selection_mem =>
        showable_of_faithful distinct (extracts.terms term mem) selection_mem
  have heads' : Heads (if left = "" then "Full clause list" else left ++ "\n\nFull clause list") := by
    split
    · exact ⟨["Full clause list"], by simp [viewHeadings], by simp⟩
    · have listed : "Full clause list" ∈ viewHeadings := by simp [viewHeadings]
      have more := heads.more listed
      rwa [String.append_assoc] at more
  obtain ⟨list, second, list_ids, list_texts⟩ :=
    listUnits_spec distinct rfl heads' fun record (mem : record ∈ built) => mem
  refine ⟨terms ++ list, ?_, ⟨terms, list, rfl, term_ids, list_ids⟩, ?_⟩
  · have long : (contractClaims ⟨built.map (·.1), keyTerms⟩).length =
        (built.map (·.1)).length := by simp [contractClaims]
    rw [renderUnits, refuseIf_of_not (by simp [extracts.categories, long]), ok_then, lines,
      ok_then, zipped, table, ok_then, List.nil_append, first, ok_then]
    simp only [second, ok_then]
    rfl
  · intro unit mem
    rcases List.mem_append.mp mem with old | new
    · exact term_texts unit old
    · exact list_texts unit new

/-! ### Evidence by identity -/

theorem evidence_unique (injective : Function.Injective platform.sha256Hex)
    (separable : Separable normalized chunked) {fragment fragment' : SourceFragment}
    {item item' : EvidenceItem} (cites : Cites platform chunked normalized fragment item)
    (cites' : Cites platform chunked normalized fragment' item')
    (same : item.evidenceId = item'.evidenceId) : item = item' := by
  have plain : ∀ {fragment : SourceFragment} {item : EvidenceItem},
      Cites platform chunked normalized fragment item →
        '\x00' ∉ item.chunkId.toList ∧ '\x00' ∉ fragment.blockId.toList := by
    intro fragment item cites
    obtain ⟨chunk, chunk_mem, -, own⟩ := cites.chunk
    obtain ⟨block, found, -⟩ := Option.map_eq_some_iff.mp cites.span
    obtain ⟨block_mem, id⟩ := findBlock_spec found
    exact ⟨own ▸ separable.chunks chunk chunk_mem, id ▸ separable.blocks block block_mem⟩
  obtain ⟨chunk, block⟩ := plain cites
  obtain ⟨chunk', block'⟩ := plain cites'
  rw [cites.evidenceId, cites'.evidenceId] at same
  obtain ⟨chunks, rfl, quotes⟩ := sourceEvidenceId_injective injective chunk chunk' block block' same
  have spans := cites.span.symm.trans cites'.span
  have ids := cites.evidenceId.trans (by rw [chunks, quotes, ← cites'.evidenceId])
  have blocks := cites.blockId.trans cites'.blockId.symm
  have claims := cites.claim.trans (quotes.trans cites'.claim.symm)
  cases item
  cases item'
  simp only [Option.some.injEq] at chunks quotes spans ids blocks claims
  simp only [EvidenceItem.mk.injEq]
  exact ⟨ids, chunks, blocks, claims, quotes, spans⟩

theorem mem_evidenceByChunk (extracts : Extracts platform chunked normalized sources built keyTerms)
    {item : EvidenceItem} :
    item ∈ evidenceByChunk chunked (built.flatMap (·.2)) ↔ item ∈ built.flatMap (·.2) := by
  rw [evidenceByChunk, List.mem_flatMap]
  constructor
  · rintro ⟨chunk, -, mem⟩
    exact (List.mem_filter.mp mem).1
  · intro mem
    obtain ⟨record, record_mem, item_mem⟩ := List.mem_flatMap.mp mem
    obtain ⟨source, -, copies⟩ := forall₂_right_exists extracts.copies record_mem
    obtain ⟨fragment, -, cites⟩ := forall₂_right_exists copies.evidence item_mem
    obtain ⟨chunk, chunk_mem, -, own⟩ := cites.chunk
    exact ⟨chunk, chunk_mem, List.mem_filter.mpr ⟨mem, decide_eq_true own⟩⟩

theorem clauseIds_nodup (injective : Function.Injective platform.sha256Hex)
    (extracts : Extracts platform chunked normalized sources built keyTerms) :
    (built.map (·.1.clauseId)).Nodup := by
  have ordinals : ((sources.zipIdx).map (·.2)).Nodup := by
    rw [List.zipIdx_map_snd]
    exact List.nodup_range'
  rw [List.nodup_iff_pairwise_ne, List.pairwise_iff_getElem] at ordinals ⊢
  intro i j hi hj less same
  rw [List.length_map] at hi hj
  have long := extracts.copies.length_eq
  simp only [List.getElem_map] at same ordinals
  have copies := List.forall₂_iff_get.mp extracts.copies
  have first := (copies.2 i (by omega) hi).clauseId
  have second := (copies.2 j (by omega) hj).clauseId
  simp only [List.get_eq_getElem] at first second
  rw [first, second] at same
  exact ordinals i j (by rw [List.length_map]; omega) (by rw [List.length_map]; omega) less
    (clauseIdentity_injective injective same)

/-- Contract extraction is faithful: it copies every clause with evidence for its exact ranges,
selects whole sections apart from each other, and presents each clause under the key terms that
select it and once in the full list. -/
theorem contract_extraction_faithful (unicode : Unicode)
    (injective : Function.Injective platform.sha256Hex)
    (boundary : validateNormalizedChunkBoundary normalized chunked = .ok ())
    (separable : Separable normalized chunked) {version : String} {policy : FurniturePolicy}
    (supported : contractFurniturePolicy version = .ok policy) :
    ∃ sources, contractSources unicode normalized policy (contractGrammar version) =
        some sources ∧
      (sources = [] → records platform unicode chunked normalized version =
        .error (.failure invalidContractExtraction)) ∧
      (sources ≠ [] → ∃ built keyTerms units,
        records platform unicode chunked normalized version =
          .ok (⟨built.map (·.1), keyTerms⟩, built.flatMap (·.2)) ∧
        Extracts platform chunked normalized sources built keyTerms ∧
        (built.map (·.1.clauseId)).Nodup ∧
        (∀ item ∈ built.flatMap (·.2),
          findEvidence (built.flatMap (·.2)) item.evidenceId = some item) ∧
        renderUnits ⟨built.map (·.1), keyTerms⟩ (contractClaims ⟨built.map (·.1), keyTerms⟩)
          (evidenceByChunk chunked (built.flatMap (·.2))) = .ok units ∧
        Presents built keyTerms units) := by
  obtain ⟨sources, cut, none, some_⟩ := records_spec platform unicode boundary supported
  refine ⟨sources, cut, none, ?_⟩
  intro nonempty
  obtain ⟨built, keyTerms, computed, extracts⟩ := some_ nonempty
  have unique : ∀ item ∈ built.flatMap (·.2), ∀ other ∈ built.flatMap (·.2),
      other.evidenceId = item.evidenceId → other = item := by
    have cited : ∀ item ∈ built.flatMap (·.2), ∃ fragment,
        Cites platform chunked normalized fragment item := by
      intro item mem
      obtain ⟨record, record_mem, item_mem⟩ := List.mem_flatMap.mp mem
      obtain ⟨source, -, copies⟩ := forall₂_right_exists extracts.copies record_mem
      obtain ⟨fragment, -, cites⟩ := forall₂_right_exists copies.evidence item_mem
      exact ⟨fragment, cites⟩
    intro item mem other other_mem same
    exact evidence_unique injective separable (cited other other_mem).choose_spec
      (cited item mem).choose_spec same
  have distinct := clauseIds_nodup injective extracts
  have held : ∀ record ∈ built, ∀ item ∈ record.2,
      findEvidence (evidenceByChunk chunked (built.flatMap (·.2))) item.evidenceId = some item := by
    intro record record_mem item item_mem
    have mem : item ∈ built.flatMap (·.2) := List.mem_flatMap.mpr ⟨record, record_mem, item_mem⟩
    exact findEvidence_of_unique ((mem_evidenceByChunk extracts).mpr mem)
      fun other other_mem => unique item mem other ((mem_evidenceByChunk extracts).mp other_mem)
  obtain ⟨units, rendered, presents⟩ := renderUnits_spec distinct extracts held
  exact ⟨built, keyTerms, units, computed, extracts, distinct,
    fun item mem => findEvidence_of_unique mem (unique item mem), rendered, presents⟩

end View

/-! ## A section shown twice -/

def feesPage : NormalizedPage where
  pageNumber := 1
  content := [⟨"1", .text, "1. Fees\nTwo percent.", ⟨1, 1, none, .nativeText⟩⟩]
  warnings := []
  requiresVisualProcessing := false

/-- A contract of one section, which matches a key term. -/
def feesDocument : NormalizedDocument where
  documentId := "d"
  normalizationVersion := normalizationVersion
  pages := [feesPage]
  warnings := []

def feesChunked : ChunkedDocument where
  documentId := "d"
  chunkingVersion := "1.0.0"
  chunks := [⟨"ch", 1, "sn", "1. Fees\nTwo percent.", ["1"], [⟨1, 1, none, .nativeText⟩], []⟩]
  warnings := []

/-- The digests of the identities of the clause and of its evidence. -/
def feesDigests : List (List UInt8 × String) :=
  [(asBytes "contract-clause\x00contract-extraction-3.0.2\x00d\x000\x001. Fees\nTwo percent.",
      "febe3eedf93c682c47a768316c0e07d3f78d9b64bb4518e16cdb76bfee70f519"),
    (asBytes ("contract-source\x00contract-extraction-3.0.2\x00d\x00ch\x001\x000\x0020\x00" ++
        "1. Fees\nTwo percent."),
      "e4e860827a9d1a5bd831435355c84f7dfc2204ac0f712d2a1a52eed22ca1304d")]

/-- Real digests for `feesDocument` and codes for other bytes. -/
def feesPlatform : TextPlatform where
  sha256Hex bytes := ((feesDigests.find? (·.1 == bytes)).map (·.2)).getD (byteCode bytes)
  isUppercase := Char.isUpper

theorem contract_extraction_faithful_of_fees :
    ∃ sources built keyTerms units, contractSources .ascii feesDocument .runningMetadata
        (contractGrammar contractExtractionVersion) = some sources ∧ sources ≠ [] ∧
      records feesPlatform .ascii feesChunked feesDocument contractExtractionVersion =
        .ok (⟨built.map (·.1), keyTerms⟩, built.flatMap (·.2)) ∧
      Extracts feesPlatform feesChunked feesDocument sources built keyTerms ∧
      renderUnits ⟨built.map (·.1), keyTerms⟩ (contractClaims ⟨built.map (·.1), keyTerms⟩)
        (evidenceByChunk feesChunked (built.flatMap (·.2))) = .ok units ∧
      Presents built keyTerms units := by
  have injective : Function.Injective feesPlatform.sha256Hex :=
    @listed_digest_injective feesDigests (by decide +kernel) (by decide +kernel)
  obtain ⟨sources, cut, -, extracted⟩ := contract_extraction_faithful .ascii injective
    (show validateNormalizedChunkBoundary feesDocument feesChunked = .ok () by decide +kernel)
    ⟨by decide +kernel, by decide +kernel⟩ (show contractFurniturePolicy
      contractExtractionVersion = .ok .runningMetadata from rfl)
  have filled : (contractSources .ascii feesDocument .runningMetadata
      (contractGrammar contractExtractionVersion)).map (·.isEmpty) = some false := by
    decide +kernel
  simp only [cut, Option.map_some, Option.some.injEq, List.isEmpty_eq_false_iff] at filled
  obtain ⟨built, keyTerms, units, computed, extracts, -, -, rendered, presents⟩ :=
    extracted filled
  exact ⟨sources, built, keyTerms, units, cut, filled, computed, extracts, rendered, presents⟩

/-- The clause of the section is presented under its key term and again in the full list. -/
theorem fees_presented_twice :
    ∃ extraction evidence units,
      records feesPlatform .ascii feesChunked feesDocument contractExtractionVersion =
        .ok (extraction, evidence) ∧
      renderUnits extraction (contractClaims extraction) (evidenceByChunk feesChunked evidence) =
        .ok units ∧
      ¬ (units.flatMap (·.clauseIds)).Perm (extraction.clauses.map (·.clauseId)) := by
  obtain ⟨⟨extraction, evidence⟩, computed⟩ := exists_ok (show (records feesPlatform .ascii
    feesChunked feesDocument contractExtractionVersion).isOk = true by decide +kernel)
  have rendered : (match records feesPlatform .ascii feesChunked feesDocument
      contractExtractionVersion with
    | .ok (extraction, evidence) =>
      (renderUnits extraction (contractClaims extraction)
        (evidenceByChunk feesChunked evidence)).toOption.map fun units =>
          ((units.flatMap (·.clauseIds)).length, extraction.clauses.length)
    | .error _ => none) = some (2, 1) := by decide +kernel
  rw [computed] at rendered
  obtain ⟨units, found, lengths⟩ := Option.map_eq_some_iff.mp rendered
  refine ⟨extraction, evidence, units, computed, ?_, ?_⟩
  · cases shown : renderUnits extraction (contractClaims extraction)
        (evidenceByChunk feesChunked evidence) with
    | error e =>
        rw [shown] at found
        cases found
    | ok other =>
        rw [shown] at found
        exact congrArg Except.ok (Option.some.inj found)
  · intro permuted
    have same := permuted.length_eq
    rw [List.length_map] at same
    simp only [Prod.mk.injEq] at lengths
    omega

end DocumentSummarizer.Pipeline
