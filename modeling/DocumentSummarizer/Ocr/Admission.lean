import DocumentSummarizer.Ocr.HandoffDiscipline

/-! # Insertion, admission and the operations from outside

The steps that change more than one row of the handoff table, or none.
-/

namespace DocumentSummarizer.Ocr

open Library Pipeline

variable {platform : OcrPlatform} {w : HandoffWorld} {k : Nat} {codec : Codec} {s t : Store}

/-! ## Operations from outside -/

theorem allows_tables {call : Call} (inv : HandoffInvariant platform w)
    (called : call.after platform.codec w.store = t)
    (tables : handoffTables t = handoffTables w.store) :
    (handoffDiscipline platform).Allows k w ⟨t, w.applications⟩ := by
  obtain ⟨handoffs, lineage⟩ := Prod.mk.inj tables
  have later : RowsLater platform w.store t := by
    intro a mem
    exact ⟨a, handoffs ▸ mem, .refl a⟩
  refine ⟨⟨called ▸ inv.reachable.after call, ?_, ?_, ?_⟩, fun _ _ => later, ?_⟩
  · refine ⟨?_, ?_, ?_⟩
    · exact handoffs ▸ inv.keyed.ids
    · exact handoffs ▸ inv.keyed.distinct
    · exact lineage ▸ inv.keyed.lineage
  · intro handoff mem
    exact inv.kept handoff (handoffs ▸ mem)
  · intro timely
    have owned := inv.owned timely
    refine ⟨?_, ?_, ?_⟩
    · intro row mem
      obtain ⟨handoff, mem', facts⟩ := owned.lineage row (lineage ▸ mem)
      exact ⟨handoff, handoffs ▸ mem', facts⟩
    · intro handoff mem admitted
      have before := owned.admitted handoff (handoffs ▸ mem) admitted
      exact before.after called rfl (by rw [lineage]; exact fun _ mem => mem)
    · intro handoff mem
      exact owned.output handoff (handoffs ▸ mem)
  · refine ⟨.inr ⟨call, called.symm⟩, List.suffix_refl _, later, ?_⟩
    intro _ a mem b mem' same
    have mem'' : b ∈ w.store.ocrHandoffs := handoffs ▸ mem'
    exact .inl (congrArg _ (inv.keyed.unique mem mem'' same))

theorem allows_outside {amb : Ambient} {operation : Operation}
    (inv : HandoffInvariant platform w) (outside : isOutside operation = true)
    (done : operation.body platform.codec amb w.store = .ok ((), t)) :
    (handoffDiscipline platform).Allows k w ⟨t, w.applications⟩ := by
  have called := called_of_ok amb operation done
  by_cases marked : ∃ childRunId, operation = .markOcrHandoffCompletedForChild childRunId
  · obtain ⟨childRunId, rfl⟩ := marked
    obtain ⟨changed, body⟩ := discardResult_ok.mp done
    simp only [markOcrHandoffCompletedForChild, peel_ok] at body
    obtain ⟨run, -, body⟩ := body
    split at body
    · obtain ⟨-, rfl⟩ := Prod.mk.inj (return_ok.mp body)
      exact allows_same inv (List.suffix_refl _)
    · simp only [peel_ok, return_ok] at body
      obtain ⟨⟨count, u⟩, updated, body⟩ := body
      obtain ⟨-, rfl⟩ := Prod.mk.inj body
      apply allows_update inv updated called (List.suffix_refl _)
      intro a _ chosen
      simp only [decide_eq_true_eq] at chosen
      exact rowStep_complete chosen.2
  · exact allows_tables inv called
      (outside_tables outside (fun childRunId same => marked ⟨childRunId, same⟩) done)

/-! ## Insertion -/

theorem collides_comm {a b : OcrHandoff} (h : a.collides b = true) : b.collides a = true := by
  simp only [OcrHandoff.collides, Bool.or_eq_true, Bool.and_eq_true, beq_iff_eq] at h ⊢
  rcases h with (((((((h | h) | h) | h) | h) | h) | ⟨some, h⟩) | ⟨some, h⟩)
  · simp [h]
  · simp [h]
  · simp [h]
  · simp [h]
  · simp [h]
  · simp [h]
  · simp [← h, some]
  · simp [← h, some]

theorem keyed_insert {codec : Codec} {handoff : OcrHandoff} (keyed : Keyed s)
    (h : insertOcrHandoff codec s handoff = .ok t) :
    t = { s with ocrHandoffs := s.ocrHandoffs ++ [handoff] } ∧ Keyed t ∧
      ∀ a ∈ s.ocrHandoffs, a.handoffId ≠ handoff.handoffId := by
  simp only [insertOcrHandoff, peel_ok, refuseIf_eq_ok, return_ok, exists_const,
    Bool.not_eq_true, Option.isSome_eq_false_iff, Option.isNone_iff_eq_none] at h
  obtain ⟨-, absent, distinct, -, rfl⟩ := h
  have fresh : ∀ a ∈ s.ocrHandoffs, a.handoffId ≠ handoff.handoffId := by
    intro a mem same
    have missing := List.find?_eq_none.mp absent a mem
    simp [same] at missing
  refine ⟨rfl, ⟨?_, ?_, keyed.lineage⟩, fresh⟩
  · simp only [List.map_append, List.map_cons, List.map_nil]
    refine List.nodup_append.mpr ⟨keyed.ids, by simp, ?_⟩
    intro x left y right
    obtain ⟨a, mem, rfl⟩ := List.mem_map.mp left
    obtain rfl := List.mem_singleton.mp right
    exact fresh a mem
  · refine List.pairwise_append.mpr ⟨keyed.distinct, by simp, ?_⟩
    intro a mem b right
    obtain rfl := List.mem_singleton.mp right
    cases collides : a.collides b with
    | false => rfl
    | true =>
        have none := List.any_eq_false.mp distinct a mem
        exact absurd (collides_comm collides) none

theorem kept_prepared {admission : NewOcrHandoff} :
    Kept platform (preparedHandoff codec admission) where
  early _ := rfl
  pair := by
    intro stored
    cases stored with
    | inl pdf => cases pdf
    | inr text => cases text
  ready := nofun

theorem allows_prepare (amb : Ambient) {admission : NewOcrHandoff} {handoff : OcrHandoff}
    (inv : HandoffInvariant platform w)
    (done : prepareOcrHandoff platform.codec admission w.store = .ok (handoff, t)) :
    (handoffDiscipline platform).Allows k w ⟨t, w.applications⟩ ∧ handoff ∈ t.ocrHandoffs := by
  have called := called_of_ok amb (.prepareOcrHandoff admission)
    (discardResult_ok.mpr ⟨handoff, done⟩)
  simp only [prepareOcrHandoff] at done
  split at done
  · next existing found =>
      obtain ⟨rfl, rfl⟩ := Prod.mk.inj (Except.ok.inj done)
      exact ⟨allows_same inv (List.suffix_refl _), (mem_of_getOcrHandoffForRoot found).1⟩
  · simp only [peel_ok, okOrElse_eq_ok, return_ok] at done
    obtain ⟨root, -, document, -, parsed, -, _, -, u, inserted, admitted, found, done⟩ := done
    obtain ⟨rfl, rfl⟩ := Prod.mk.inj done
    obtain ⟨rfl, keyed, fresh⟩ := keyed_insert inv.keyed inserted
    have later : RowsLater platform w.store { w.store with
        ocrHandoffs := w.store.ocrHandoffs ++ [preparedHandoff platform.codec admission] } :=
      fun a mem => ⟨a, List.mem_append_left _ mem, .refl a⟩
    have cases_row : ∀ b ∈ w.store.ocrHandoffs ++ [preparedHandoff platform.codec admission],
        b ∈ w.store.ocrHandoffs ∨ b = preparedHandoff platform.codec admission := by
      intro b mem
      simpa only [List.mem_append, List.mem_singleton] using mem
    refine ⟨⟨⟨called ▸ inv.reachable.after _, keyed, ?_, ?_⟩, fun _ _ => later, ?_⟩,
      (mem_of_getOcrHandoff found).1⟩
    · intro b mem streamed
      rcases cases_row b mem with old | rfl
      · exact inv.kept b old streamed
      · exact kept_prepared
    · intro timely
      have owned := inv.owned timely
      refine ⟨?_, ?_, ?_⟩
      · intro row mem
        obtain ⟨a, mem', facts⟩ := owned.lineage row mem
        exact ⟨a, List.mem_append_left _ mem', facts⟩
      · intro b mem admitted
        rcases cases_row b mem with old | rfl
        · have before := owned.admitted b old admitted
          exact ⟨before.lineage, before.child, before.root⟩
        · cases admitted
      · intro b mem holds
        rcases cases_row b mem with old | rfl
        · exact owned.output b old holds
        · cases holds
    · refine ⟨.inr ⟨_, called.symm⟩, List.suffix_refl _, later, ?_⟩
      intro _ a mem b mem' same
      rcases cases_row b mem' with old | rfl
      · exact .inl (congrArg _ (inv.keyed.unique mem old same))
      · exact absurd same (fresh a mem)

/-! ## Admission -/

/-- What admitting a child leaves in the store. -/
structure Admission (s t : Store) (current : OcrHandoff) : Prop where
  phase : current.phase = .outputReady
  lineage : ∃ artifactId, t.ocrLineage =
    s.ocrLineage ++ [⟨current.handoffId, artifactId, current.childRunId⟩]
  first : ∀ row ∈ s.ocrLineage, row.handoffId ≠ current.handoffId
  handoffs : t.ocrHandoffs = s.ocrHandoffs.map fun h =>
    if h.handoffId = current.handoffId ∧ h.phase = .outputReady then
      { h with phase := .childAdmitted }
    else h
  distinct : t.ocrHandoffs.Pairwise fun a b => a.collides b = false
  child : getPipelineRun t current.childRunId ≠ none
  root : ∃ run failure, getPipelineRun t current.rootRunId = some run ∧ run.state = .failed ∧
    run.failure = some failure ∧ failure.code = "OCR_DERIVED_HANDOFF"

theorem getPipelineRun_recordTransition_self {runId : String} {run : PipelineRun}
    {event : PipelineEvent} (key : run.runId = runId) :
    getPipelineRun (s.recordTransition runId run event) runId = some run :=
  (congrArg RunRows.row (rowsOf_setRun_self (s := s) key) :)

theorem getPipelineRun_recordTransition_ne {runId other : String} {run : PipelineRun}
    {event : PipelineEvent} (h : other ≠ runId) :
    getPipelineRun (s.recordTransition runId run event) other = getPipelineRun s other :=
  getPipelineRun_setRun_ne (s := s) h

theorem persistIngestion_present {amb document run profile result}
    (h : persistIngestionInTransaction amb s document run profile = .ok (result, t)) :
    getPipelineRun t run.runId ≠ none := by
  simp only [persistIngestionInTransaction, persistReceivedRunToIngested, peel_ok, return_ok] at h
  obtain ⟨_, -, u, -, ⟨ingested, x⟩, ⟨v, -, y, -, ⟨ingesting, z⟩, -, finished⟩, q, profiled, h⟩ := h
  obtain ⟨-, rfl⟩ := Prod.mk.inj h
  have key := transitionInTx_runId finished
  obtain ⟨before, -, -, -, -, -, -, -, -, rfl⟩ := transitionInTx_ok.mp finished
  have same := congrArg RunRows.row ((ensureRunSummaryProfile_gives profiled).same.rows run.runId)
  have row : getPipelineRun q run.runId = some ingested :=
    same.trans (getPipelineRun_recordTransition_self key)
  rw [row]
  rintro ⟨⟩

theorem admitNewOcrChild_ok {amb handoff current pdfBytes document run result}
    (same : handoff.rootRunId = current.rootRunId)
    (h : admitNewOcrChild codec amb handoff current pdfBytes document run s = .ok (result, t)) :
    Admission s t current := by
  simp only [admitNewOcrChild, peel_ok, okOrElse_eq_ok, refuseIf_eq_ok, return_ok, exists_const,
    not_or, not_not, ne_eq] at h
  obtain ⟨⟨phase, -, child, -⟩, profile, -, ⟨ingested, u⟩, persisted, ⟨copied, v⟩, copy, -, root,
    found, ⟨moved, x⟩, failed, y, inserted, ⟨changed, z⟩, updated, -, h⟩ := h
  obtain ⟨-, rfl⟩ := Prod.mk.inj h
  rw [getPipelineRun_runId found, same] at failed
  have copied := (persistIngestionInTransaction_profiles persisted).1.beside ▸
    (copyModelProfile_gives copy).profiled.beside
  obtain ⟨handoffs, lineage⟩ := Prod.mk.inj (handoffTables_of_beside
    ((transitionInTx_lineages failed).beside.trans copied))
  have present : getPipelineRun v current.childRunId ≠ none := by
    have row := persistIngestion_present persisted
    rw [child] at row
    have rows := congrArg RunRows.row ((copyModelProfile_gives copy).same.rows current.childRunId)
    exact fun missing => row (rows.symm.trans missing)
  have key := transitionInTx_runId failed
  obtain ⟨before, -, -, -, -, -, -, -, made, rfl⟩ := transitionInTx_ok.mp failed
  simp only [insertOcrLineage, peel_ok, okOrElse_eq_ok, refuseIf_eq_ok, return_ok,
    exists_const] at inserted
  obtain ⟨artifactId, -, unlisted, -, -, rfl⟩ := inserted
  obtain ⟨rfl, distinct, -⟩ := updateOcrHandoffs_ok updated
  have failed_root : getPipelineRun (v.recordTransition current.rootRunId moved
      (recordedEvent amb 3 v current.rootRunId before .failed (some .parse)
        (some (derivedHandoffFailure current.childRunId).code))) current.rootRunId = some moved :=
    getPipelineRun_recordTransition_self key
  refine ⟨phase, ⟨artifactId, ?_⟩, ?_, ?_, distinct, ?_, ?_⟩
  · exact congrArg (· ++ [_]) lineage
  · intro row mem id
    exact unlisted ⟨row, lineage.symm ▸ mem, id⟩
  · have rows := congrArg (List.map fun h : OcrHandoff =>
      if h.handoffId = current.handoffId ∧ h.phase = .outputReady then
        { h with phase := .childAdmitted }
      else h) handoffs
    simpa only [decide_eq_true_eq] using rows
  · by_cases own : current.childRunId = current.rootRunId
    · rw [own]
      intro missing
      cases failed_root.symm.trans missing
    · have kept : getPipelineRun (v.recordTransition current.rootRunId moved
          (recordedEvent amb 3 v current.rootRunId before .failed (some .parse)
            (some (derivedHandoffFailure current.childRunId).code))) current.childRunId =
          getPipelineRun v current.childRunId := getPipelineRun_recordTransition_ne own
      exact fun missing => present (kept.symm.trans missing)
  · refine ⟨moved, derivedHandoffFailure current.childRunId, failed_root, ?_, ?_, rfl⟩
    · rw [← made]
      rfl
    · rw [← made]
      rfl

theorem admitOcrChild_cases {amb handoff document run result}
    (known : ∀ current, getOcrHandoff s handoff.handoffId = some current →
      handoff.rootRunId = current.rootRunId)
    (h : admitOcrChild codec amb handoff document run s = .ok (result, t)) :
    ∃ current, getOcrHandoff s handoff.handoffId = some current ∧
      ((isAdmitted current.phase = true ∧ t = s ∧
        getPipelineRun s current.childRunId = some result) ∨ Admission s t current) := by
  simp only [admitOcrChild, peel_ok, okOrElse_eq_ok] at h
  obtain ⟨current, found, pdfBytes, -, h⟩ := h
  refine ⟨current, found, ?_⟩
  split at h
  · next admitted =>
      simp only [peel_ok, okOrElse_eq_ok, return_ok] at h
      obtain ⟨child, row, h⟩ := h
      obtain ⟨rfl, rfl⟩ := Prod.mk.inj h
      exact .inl ⟨by simpa [isAdmitted] using admitted, rfl, row⟩
  · exact .inr (admitNewOcrChild_ok (known current found) h)

theorem allows_admission {amb : Ambient} {handoff : OcrHandoff} {document : IngestedDocument}
    {run result : PipelineRun} (inv : HandoffInvariant platform w)
    (known : ∃ row ∈ w.store.ocrHandoffs, RowLater platform handoff row)
    (done : admitOcrChild platform.codec amb handoff document run w.store = .ok (result, t)) :
    (handoffDiscipline platform).Allows k w ⟨t, w.applications⟩ := by
  have called := called_of_ok amb (.admitOcrChild handoff document run)
    (discardResult_ok.mpr ⟨result, done⟩)
  obtain ⟨row, present, later⟩ := known
  have same_root : ∀ current, getOcrHandoff w.store handoff.handoffId = some current →
      handoff.rootRunId = current.rootRunId := by
    intro current found
    rw [later.owner.handoffId, inv.keyed.getOcrHandoff present] at found
    cases found
    exact later.owner.rootRunId
  obtain ⟨current, found, ⟨-, rfl, -⟩ | admission⟩ := admitOcrChild_cases same_root done
  · exact allows_same inv (List.suffix_refl _)
  · obtain ⟨mem, -⟩ := mem_of_getOcrHandoff found
    obtain ⟨artifactId, lineage⟩ := admission.lineage
    let promoted := fun h : OcrHandoff =>
      if h.handoffId = current.handoffId ∧ h.phase = .outputReady then
        { h with phase := OcrPhase.childAdmitted }
      else h
    have handoffs : t.ocrHandoffs = w.store.ocrHandoffs.map promoted := admission.handoffs
    have own : promoted current = { current with phase := .childAdmitted } :=
      if_pos ⟨rfl, admission.phase⟩
    have other : ∀ a ∈ w.store.ocrHandoffs, a ≠ current → promoted a = a := by
      intro a mem' differs
      exact if_neg fun chosen => differs (inv.keyed.unique mem' mem chosen.1)
    have cases_row : ∀ a ∈ w.store.ocrHandoffs, a = current ∨ promoted a = a := by
      intro a mem'
      by_cases same : a = current
      · exact .inl same
      · exact .inr (other a mem' same)
    have rowLater : ∀ a ∈ w.store.ocrHandoffs, RowLater platform a (promoted a) := by
      intro a mem'
      rcases cases_row a mem' with rfl | same
      · rw [own]
        exact ⟨rfl, fun _ _ saved => saved⟩
      · rw [same]
        exact .refl a
    have rowsLater : RowsLater platform w.store t := by
      intro a mem'
      exact ⟨promoted a, handoffs ▸ List.mem_map_of_mem mem', rowLater a mem'⟩
    have keyed : Keyed t := by
      refine ⟨?_, admission.distinct, ?_⟩
      · rw [handoffs, List.map_map]
        have ids : w.store.ocrHandoffs.map ((·.handoffId) ∘ promoted) =
            w.store.ocrHandoffs.map (·.handoffId) :=
          List.map_congr_left fun a mem' => (rowLater a mem').owner.handoffId.symm
        rw [ids]
        exact inv.keyed.ids
      · rw [lineage, List.map_append]
        refine List.nodup_append.mpr ⟨inv.keyed.lineage, by simp, ?_⟩
        intro x left y right
        obtain ⟨row, mem', rfl⟩ := List.mem_map.mp left
        obtain rfl := List.mem_singleton.mp right
        exact admission.first row mem'
    refine ⟨⟨called ▸ inv.reachable.after _, keyed, ?_, ?_⟩, fun _ _ => rowsLater, ?_⟩
    · intro b present' streamed
      rw [handoffs] at present'
      obtain ⟨a, mem', rfl⟩ := List.mem_map.mp present'
      rcases cases_row a mem' with rfl | same
      · rw [own] at streamed ⊢
        have kept := inv.kept a mem' (streamed.congr rfl)
        have ready := kept.ready (by rw [admission.phase]; rfl)
        exact ⟨nofun, kept.pair, fun _ => ready⟩
      · rw [same] at streamed ⊢
        exact inv.kept a mem' streamed
    · intro timely
      have owned := inv.owned timely
      refine ⟨?_, ?_, ?_⟩
      · intro row' present'
        rw [lineage] at present'
        rcases List.mem_append.mp present' with old | new
        · obtain ⟨a, mem', same, admitted⟩ := owned.lineage row' old
          refine ⟨promoted a, handoffs ▸ List.mem_map_of_mem mem', ?_⟩
          rcases cases_row a mem' with rfl | kept
          · rw [admission.phase] at admitted
            cases admitted
          · rw [kept]
            exact ⟨same, admitted⟩
        · obtain rfl := List.mem_singleton.mp new
          exact ⟨promoted current, handoffs ▸ List.mem_map_of_mem mem, by rw [own], by rw [own]; rfl⟩
      · intro b present' admitted
        rw [handoffs] at present'
        obtain ⟨a, mem', rfl⟩ := List.mem_map.mp present'
        rcases cases_row a mem' with rfl | same
        · rw [own]
          refine ⟨⟨_, lineage ▸ List.mem_append_right _ (List.mem_singleton.mpr rfl), rfl, rfl⟩,
            admission.child, admission.root⟩
        · rw [same] at admitted ⊢
          have before := owned.admitted a mem' admitted
          apply before.after called rfl
          rw [lineage]
          exact fun _ old => List.mem_append_left _ old
      · intro b present' holds
        rw [handoffs] at present'
        obtain ⟨a, mem', rfl⟩ := List.mem_map.mp present'
        rcases cases_row a mem' with rfl | same
        · rw [own]
          exact owned.output a mem' (by rw [admission.phase]; rfl)
        · rw [same] at holds ⊢
          exact owned.output a mem' holds
    · refine ⟨.inr ⟨_, called.symm⟩, List.suffix_refl _, rowsLater, ?_⟩
      intro _ a mem' b present' same
      rw [handoffs] at present'
      obtain ⟨a', mem'', rfl⟩ := List.mem_map.mp present'
      obtain rfl := inv.keyed.unique mem' mem''
        (same.trans (rowLater a' mem'').owner.handoffId.symm)
      rcases cases_row a mem' with rfl | kept
      · rw [own, admission.phase]
        exact .inr .admission
      · rw [kept]
        exact .inl rfl

end DocumentSummarizer.Ocr
