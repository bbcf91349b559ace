import DocumentSummarizer.Pipeline.DeliveryLedger

/-! # The delivery ceiling

The ledger that direct delivery renders takes the projected bytes, and whatever
verification leaves of it stays within the ceiling.
-/

namespace DocumentSummarizer.Pipeline

open Library

/-! ## Plans and chunks -/

section Plans

variable {normalized : NormalizedDocument} {selected : Finset Nat}

theorem spreadAdditions_card {unused : List Nat} {additional : Nat} {result : Finset Nat}
    (h : spreadAdditions unused additional selected = .ok result) :
    result.card ≤ selected.card + additional := by
  have steps : ∀ (indices : List Nat) (selected result : Finset Nat),
      indices.foldlM (fun selected index => do
        let position ←
          if additional ≤ 1 then
            pure (unused.length / 2)
          else do
            let last ← minus unused.length 1
            pure (index * last / (additional - 1))
        let page ← indexed unused position
        return insert page selected) selected = .ok result →
      result.card ≤ selected.card + indices.length := by
    intro indices
    induction indices with
    | nil =>
        intro selected result done
        obtain rfl := return_ok.mp done
        exact Nat.le_refl _
    | cons index rest ih =>
        intro selected result done
        rw [List.foldlM_cons, peel_ok] at done
        obtain ⟨next, here, later⟩ := done
        have inserts : ∃ page, next = insert page selected := by
          split at here
          · simp only [peel_ok, return_ok] at here
            obtain ⟨_, -, page, -, rfl⟩ := here
            exact ⟨page, rfl⟩
          · simp only [peel_ok, return_ok] at here
            obtain ⟨_, -, _, -, page, -, rfl⟩ := here
            exact ⟨page, rfl⟩
        obtain ⟨page, rfl⟩ := inserts
        have grown := ih _ _ later
        have one := Finset.card_insert_le page selected
        rw [List.length_cons]
        omega
  have bound := steps _ _ _ h
  rwa [List.length_range] at bound

/-- The analysis aims at no more claims than direct synthesis takes. -/
theorem versionedSelection_card
    (h : versionedAnalysisSelectedPages normalized analysisVersion = .ok selected) :
    selected.card ≤ directMaxClaims := by
  have direct : analysisVersion ∈ directAnalysisVersions := by decide
  have retaining : ¬ (analysisVersion ∉ directAnalysisVersions ∧
      analysisVersion ≠ retentionAnalysisVersion) := fun other => other.1 direct
  simp only [versionedAnalysisSelectedPages, if_neg retaining, if_pos direct, peel_ok,
    okOrElse_eq_ok, propagate, mapError_ok_iff] at h
  obtain ⟨historical, -, target, aimed, additional, missing, filled⟩ := h
  have capacity : target ≤ directMaxClaims := by
    simp only [directRetentionTarget, peel_ok, return_ok] at aimed
    obtain ⟨_, -, _, -, rfl⟩ := aimed
    exact Nat.min_le_right _ _
  unfold checkedSub at missing
  split at missing
  next within =>
    obtain rfl := Option.some.inj missing
    have grown := spreadAdditions_card filled
    omega
  next => cases missing

theorem validateChunks_distinct {chunkIds blockIds : List String} {chunks : List DocumentChunk}
    {first : Nat} (h : Analysis.validateChunks chunkIds blockIds (chunks.zipIdx first) = .ok ()) :
    (chunks.map (·.chunkId)).Nodup ∧ ∀ id ∈ chunks.map (·.chunkId), id ∉ chunkIds := by
  induction chunks generalizing chunkIds blockIds first with
  | nil => exact ⟨List.nodup_nil, fun _ mem => absurd mem List.not_mem_nil⟩
  | cons chunk rest ih =>
      simp only [List.zipIdx_cons, Analysis.validateChunks, peel_ok, refuseIf_eq_ok, not_or] at h
      obtain ⟨_, -, _, accepted, _, -, later⟩ := h
      obtain ⟨distinct, fresh⟩ := ih later
      refine ⟨List.nodup_cons.mpr ⟨?_, distinct⟩, ?_⟩
      · intro mem
        exact fresh _ mem List.mem_cons_self
      · intro id mem
        rcases List.mem_cons.mp mem with rfl | further
        · exact accepted.2.2.2.2.2.2
        · exact fun old => fresh id further (List.mem_cons_of_mem _ old)

end Plans

/-! ## The finished analysis -/

section Finished

variable (runtime : AnalysisRuntime) (normalized : NormalizedDocument) (target : Nat)
  (pass : AnalysisPass)

theorem warn_chunks (analyzed : AnalyzedDocument) (warns : Prop) [Decidable warns]
    (code message : String) : (analyzed.warn warns code message).chunks = analyzed.chunks := by
  unfold AnalyzedDocument.warn
  split <;> rfl

theorem finishAnalysis_evidence :
    (finishAnalysis runtime normalized target pass).evidence = pass.analyzed.evidence := by
  simp only [finishAnalysis, AnalyzedDocument.evidence, warn_chunks, List.flatMap_map]

end Finished

/-! ## Claims -/

/-- The claim of an item of evidence at its place in the ledger. -/
def ledgerClaim (platform : TextPlatform) (documentId : String) (entry : EvidenceItem × Nat) :
    CitedClaim :=
  ⟨deterministicClaimId platform documentId directSynthesisVersion entry.2 entry.1.claimText
    [entry.1.evidenceId], entry.1.claimText, [entry.1.evidenceId]⟩

section Claims

variable {platform : TextPlatform} {documentId : String} {items evidence : List EvidenceItem}

theorem materializeCitedClaims_ok (injective : Function.Injective platform.sha256Hex)
    {first : Nat} {claimIds : List String}
    (before : ∀ id ∈ claimIds, ∃ index < first, ∃ text evidenceIds, id =
      deterministicClaimId platform documentId directSynthesisVersion index text evidenceIds) :
    materializeCitedClaims platform documentId directSynthesisVersion claimIds
      ((items.map fun item => (item.claimText, [item.evidenceId])).zipIdx first) =
      .ok ((items.zipIdx first).map (ledgerClaim platform documentId)) := by
  induction items generalizing first claimIds with
  | nil => rfl
  | cons item rest ih =>
      have new : deterministicClaimId platform documentId directSynthesisVersion first
          item.claimText [item.evidenceId] ∉ claimIds := by
        intro mem
        obtain ⟨index, less, text, evidenceIds, same⟩ := before _ mem
        exact absurd (deterministicClaimId_injective injective same) less.ne'
      rw [List.map_cons, List.zipIdx_cons, List.zipIdx_cons, materializeCitedClaims]
      refine (ok_bind (refuseIf_of_not new) _).trans ?_
      refine (ok_bind (ih ?_) _).trans rfl
      intro id mem
      rcases List.mem_cons.mp mem with rfl | old
      · exact ⟨first, Nat.lt_succ_self _, _, _, rfl⟩
      · obtain ⟨index, less, rest⟩ := before id old
        exact ⟨index, less.trans (Nat.lt_succ_self _), rest⟩

theorem renderClaimLine_ledger {entry : EvidenceItem × Nat}
    (held : findEvidence evidence entry.1.evidenceId = some entry.1) :
    renderClaimLine evidence (ledgerClaim platform documentId entry) =
      .ok (deliveryLine entry.1) := by
  have spans : ([entry.1.evidenceId].mapM fun evidenceId => do
      let item ← okOrElse (findEvidence evidence evidenceId)
        (stageFailure .synthesize "INVALID_SYNTHESIZED_DOCUMENT"
          "A claim references unknown evidence" false)
      return item.sourceSpan) = .ok [entry.1.sourceSpan] := by
    rw [mapM_ok_iff, List.forall₂_cons]
    refine ⟨?_, .nil⟩
    rw [held]
    rfl
  exact (ok_bind spans _).trans rfl

theorem renderCitedSummary_ledger {analyzed : AnalyzedDocument}
    {entries : List (EvidenceItem × Nat)}
    (held : ∀ entry ∈ entries, findEvidence analyzed.evidence entry.1.evidenceId = some entry.1) :
    renderCitedSummary (entries.map (ledgerClaim platform documentId)) analyzed =
      .ok ("\n\n".intercalate ((entries.map Prod.fst).map deliveryLine)) := by
  have lines : renderClaimLines (entries.map (ledgerClaim platform documentId))
      analyzed.evidence = .ok ((entries.map Prod.fst).map deliveryLine) := by
    rw [renderClaimLines, mapM_ok_iff, List.map_map, List.forall₂_map_left_iff,
      List.forall₂_map_right_iff, List.forall₂_same]
    exact fun entry mem => renderClaimLine_ledger (held entry mem)
  rw [renderCitedSummary, lines]
  rfl

theorem supportedClaims_sublist (claims : List CitedClaim)
    (verifications : List ClaimVerification) :
    (supportedClaims claims verifications).Sublist claims := by
  induction claims generalizing verifications with
  | nil => exact List.Sublist.refl _
  | cons claim rest ih =>
      cases verifications with
      | nil => exact List.nil_sublist _
      | cons verification later =>
          rw [supportedClaims, List.zip_cons_cons, List.filter_cons]
          split
          · exact (ih later).cons_cons _
          · exact (ih later).cons _

end Claims

/-! ## Delivery -/

/-- What a summary within the ceiling is delivered as. -/
def WithinCeiling (deliveryPolicy : Option SummaryDeliveryPolicy) (text : String) : Prop :=
  checkDeliveryLimit deliveryPolicy text = .ok () ∧
    ∀ policy ∈ deliveryPolicy, text.utf8ByteSize ≤ policy.maxSummaryTextBytes

theorem withinCeiling_of_le {deliveryPolicy : Option SummaryDeliveryPolicy} {text : String}
    (bounded : ∀ policy ∈ deliveryPolicy, text.utf8ByteSize ≤ policy.maxSummaryTextBytes) :
    WithinCeiling deliveryPolicy text := by
  refine ⟨refuseIf_of_not ?_, bounded⟩
  cases deliveryPolicy with
  | none => simp
  | some policy => simpa using bounded policy rfl

section Delivery

variable {platform : TextPlatform} {tables : SentenceTables} {runtime : AnalysisRuntime}
  {chunked : ChunkedDocument} {normalized : NormalizedDocument}
  {deliveryPolicy : Option SummaryDeliveryPolicy} {target : Nat} {pass : AnalysisPass}

/-- The loop ends with a ledger of distinct evidence, no larger than direct synthesis takes. -/
theorem analyzeLoop_ledger (injective : Function.Injective platform.sha256Hex)
    (plain : ∀ chunk ∈ chunked.chunks, '\x00' ∉ chunk.chunkId.toList)
    (h : analyzeLoop platform tables runtime chunked normalized deliveryPolicy =
      .ok (target, pass)) :
    Ledger platform chunked deliveryPolicy pass ∧ pass.count ≤ directMaxClaims ∧
      (pass.analyzed.evidence.map (·.evidenceId)).Nodup := by
  simp only [analyzeLoop, peel_ok, propagate, mapError_ok_iff, return_ok] at h
  obtain ⟨_, -, _, accepted, _, -, ⟨plan, target'⟩, planned, last, run, same⟩ := h
  obtain ⟨rfl, rfl⟩ := Prod.mk.inj same
  obtain ⟨ledger, count⟩ := analyzePages_ledger Ledger.initial run
  simp only [versionedPlan, peel_ok, return_ok] at planned
  obtain ⟨selected, chosen, rest⟩ := planned
  obtain ⟨-, rfl⟩ := Prod.mk.inj rest
  refine ⟨ledger, (count (Nat.zero_le _)).trans (versionedSelection_card chosen), ?_⟩
  simp only [Analysis.validateChunkedDocument, peel_ok] at accepted
  obtain ⟨_, -, _, -, checked⟩ := accepted
  exact numbered_nodup injective ledger.numbered (validateChunks_distinct checked).1 plain

/-- A ledger that the analysis collects is rendered in the projected bytes; what verification
leaves of it is rendered within the ceiling, so that direct delivery completes. -/
theorem direct_delivery_within_ceiling (injective : Function.Injective platform.sha256Hex)
    (plain : ∀ chunk ∈ chunked.chunks, '\x00' ∉ chunk.chunkId.toList) {analyzed : AnalyzedDocument}
    (h : analyze platform tables runtime chunked normalized deliveryPolicy = .ok analyzed) :
    ∃ target pass, analyzeLoop platform tables runtime chunked normalized deliveryPolicy =
        .ok (target, pass) ∧
      (analyzed.evidence = [] →
        sourceOrderedClaims platform analyzed = .error directEvidenceCapacityInvalid) ∧
      (analyzed.evidence ≠ [] → ∃ claims text, sourceOrderedClaims platform analyzed = .ok claims ∧
        renderCitedSummary claims analyzed = .ok text ∧
        text.utf8ByteSize = pass.projectedDeliveryBytes ∧
        (∀ kept : List CitedClaim, kept.Sublist claims → ∃ shown,
          renderCitedSummary kept analyzed = .ok shown ∧ WithinCeiling deliveryPolicy shown) ∧
        ∀ verifications, ∃ shown,
          deliverDirectly platform deliveryPolicy analyzed verifications = .ok shown ∧
          WithinCeiling deliveryPolicy shown) := by
  rw [analyze, peel_ok] at h
  obtain ⟨⟨target, pass⟩, run, rest⟩ := h
  simp only [peel_ok, return_ok] at rest
  obtain ⟨_, -, rfl⟩ := rest
  obtain ⟨ledger, count, distinct⟩ := analyzeLoop_ledger injective plain run
  refine ⟨target, pass, run, ?_, ?_⟩
  · intro none
    simp [sourceOrderedClaims, none, refuseIf]
    rfl
  intro some_item
  generalize finished : finishAnalysis runtime normalized target pass = analyzed at some_item ⊢
  have same : analyzed.evidence = pass.analyzed.evidence := by
    rw [← finished, finishAnalysis_evidence]
  have ordered : (sourceOrdered analyzed.evidence).Perm analyzed.evidence :=
    List.perm_insertionSort _ _
  have held : ∀ entry ∈ (sourceOrdered analyzed.evidence).zipIdx,
      findEvidence analyzed.evidence entry.1.evidenceId = some entry.1 := by
    intro entry mem
    have item_mem := ordered.mem_iff.mp (List.fst_mem_of_mem_zipIdx mem)
    refine findEvidence_of_unique item_mem fun other other_mem id => ?_
    exact List.inj_on_of_nodup_map (same ▸ distinct) other_mem item_mem id
  have accepted : ¬ (analyzed.evidence = [] ∨ directMaxClaims < analyzed.evidence.length) := by
    rw [not_or, not_lt, same, ← ledger.count]
    exact ⟨same ▸ some_item, count⟩
  have claims : sourceOrderedClaims platform analyzed =
      .ok ((sourceOrdered analyzed.evidence).zipIdx.map
        (ledgerClaim platform analyzed.documentId)) :=
    (ok_bind (refuseIf_of_not accepted) _).trans
      (materializeCitedClaims_ok injective fun _ mem => absurd mem List.not_mem_nil)
  have bytes : ledgerBytes (sourceOrdered analyzed.evidence) = pass.projectedDeliveryBytes := by
    rw [ledgerBytes_perm ordered, same, ledger.projected]
  have kept_within : ∀ kept : List CitedClaim, kept.Sublist
      ((sourceOrdered analyzed.evidence).zipIdx.map (ledgerClaim platform analyzed.documentId)) →
      ∃ shown, renderCitedSummary kept analyzed = .ok shown ∧
        WithinCeiling deliveryPolicy shown := by
    intro kept sub
    obtain ⟨entries, inside, rfl⟩ := List.sublist_map_iff.mp sub
    refine ⟨_, renderCitedSummary_ledger fun entry mem => held entry (inside.subset mem),
      withinCeiling_of_le fun policy mem => ?_⟩
    have fewer := ledgerBytes_sublist (inside.map Prod.fst)
    rw [List.zipIdx_map_fst, bytes] at fewer
    rw [utf8ByteSize_joined]
    exact fewer.trans (ledger.ceiling policy mem)
  refine ⟨_, _, claims, renderCitedSummary_ledger held, ?_, kept_within, ?_⟩
  · rw [utf8ByteSize_joined, List.zipIdx_map_fst]
    exact bytes
  · intro verifications
    obtain ⟨shown, rendered, within⟩ := kept_within _ (supportedClaims_sublist _ verifications)
    refine ⟨shown, ?_, within⟩
    rw [deliverDirectly]
    refine (ok_bind claims _).trans ?_
    refine (ok_bind rendered _).trans ?_
    exact (ok_bind within.1 _).trans rfl

/-! ## A document with a claim on each page -/

/-- The block of a page and the claim that the model makes of it. -/
def paidPage (page : Nat) : String × String :=
  if page = 1 then (dueBlock, "Rent is paid each month.") else (mailBlock, "Notices go by mail.")

/-- The bytes of the identity of the evidence of a page. -/
def paidBytes (page ordinal : Nat) (quote : String) : List UInt8 :=
  asBytes ("evidence\x00d\x0014.0.0\x00" ++ noticesChunk.chunkId ++ "\x00" ++ toString ordinal ++
    "\x00" ++ (paidPage page).1 ++ "\x00" ++ (paidPage page).2 ++ "\x00" ++ quote)

/-- The digests of the quotations, of the evidence and of its claims. -/
def paidDigests : List (List UInt8 × String) :=
  noticesDigests ++ [(paidBytes 1 0 "Rent is due monthly.",
      "5b127dc461237492e03499692370a12fe6171eb6e703520f94515f72ce8e0273"),
    (paidBytes 2 1 "Notices are sent by mail.",
      "be3a2153790a0d8bf4b7cf9921e1175901c2ab7e56d3c79e5f8d74dfd6cc5932"),
    (asBytes ("claim\x00d\x005.0.0\x000\x00Rent is paid each month.\x00evidence-" ++
        "5b127dc461237492e03499692370a12fe6171eb6e703520f94515f72ce8e0273"),
      "dae5bcf00e1cbf9fbde6afa50196ee713f490c1c748365d699d774b9b2b4226b"),
    (asBytes ("claim\x00d\x005.0.0\x001\x00Notices go by mail.\x00evidence-" ++
        "be3a2153790a0d8bf4b7cf9921e1175901c2ab7e56d3c79e5f8d74dfd6cc5932"),
      "03b13043beaaad8c6f9eb6a1dd08fde8dfc28cd574167341fb38712b5186047f")]

def paidPlatform : TextPlatform where
  sha256Hex bytes := ((paidDigests.find? (·.1 == bytes)).map (·.2)).getD (byteCode bytes)
  isUppercase := Char.isUpper

/-- The model answers each page with its quotation. -/
def paidRuntime : AnalysisRuntime where
  runtimeId := "runtime"
  modelId := "model"
  admission := .ok ()
  omittedSourceUnits _ _ := .ok 0
  inspect _ page := (buildVersionedAnalysisQuoteCatalogForBlocks paidPlatform analysisVersion
    noticesChunk noticesDocument .ascii [(paidPage page).1]).map fun catalog =>
      .answered 0 ⟨[page], [(paidPage page).1], 1, 1, catalog.candidates⟩
        (some ⟨[⟨"q1", (paidPage page).2⟩]⟩)
  textLayerRisk _ := false
  validate _ := .ok ()

theorem direct_delivery_of_notices :
    ∃ analyzed, analyze paidPlatform .ascii paidRuntime noticesChunked noticesDocument
        (some .connect) = .ok analyzed ∧
      ∃ (pass : AnalysisPass) (claims : List CitedClaim) (text : String),
        sourceOrderedClaims paidPlatform analyzed = .ok claims ∧
        renderCitedSummary claims analyzed = .ok text ∧
        text.utf8ByteSize = pass.projectedDeliveryBytes ∧
        ∀ verifications, ∃ shown,
          deliverDirectly paidPlatform (some .connect) analyzed verifications = .ok shown ∧
          WithinCeiling (some .connect) shown := by
  obtain ⟨analyzed, ran⟩ := exists_ok (show (analyze paidPlatform .ascii paidRuntime noticesChunked
    noticesDocument (some .connect)).isOk = true by decide +kernel)
  have answered : ((analyze paidPlatform .ascii paidRuntime noticesChunked noticesDocument
    (some .connect)).toOption.any fun analyzed => analyzed.evidence ≠ []) = true := by
      decide +kernel
  rw [ran] at answered
  have some_item : analyzed.evidence ≠ [] := of_decide_eq_true answered
  obtain ⟨-, pass, -, -, delivers⟩ := @direct_delivery_within_ceiling paidPlatform .ascii
    paidRuntime noticesChunked noticesDocument (some .connect)
    (@listed_digest_injective paidDigests (by decide +kernel) (by decide +kernel)) (by decide) _ ran
  obtain ⟨claims, text, ordered, rendered, bytes, -, delivered⟩ := delivers some_item
  exact ⟨analyzed, ran, pass, claims, text, ordered, rendered, bytes, delivered⟩

end Delivery

end DocumentSummarizer.Pipeline
