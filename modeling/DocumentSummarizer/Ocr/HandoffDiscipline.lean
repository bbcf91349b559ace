import DocumentSummarizer.Ocr.HandoffSteps
import DocumentSummarizer.Pipeline.Integrity

/-! # The discipline of the handoff table

What every step on the store keeps: each root and child has one handoff, an
admitted child has its lineage row and its failed root, the outputs match the
saved completion, and phases move along the edges unless a stale status was
applied.
-/

namespace DocumentSummarizer.Ocr

open Library Pipeline

/-! ## The invariant -/

/-- The phase in the runner's copy takes statuses; or the copy was out of date and nothing
happened; or the status reports a failure before any child was admitted. -/
def Application.Timely (application : Application) : Prop :=
  Applicable application.readBack ∨ application.found ≠ some application.readBack ∨
    (application.status.state = .failed ∧ isAdmitted application.readBack = false)

def AllTimely (applications : List Application) : Prop :=
  ∀ application ∈ applications, application.Timely

/-- The keys of both tables. -/
structure Keyed (s : Store) : Prop where
  ids : (s.ocrHandoffs.map (·.handoffId)).Nodup
  distinct : s.ocrHandoffs.Pairwise fun a b => a.collides b = false
  lineage : (s.ocrLineage.map (·.handoffId)).Nodup

/-- The child of the handoff was admitted. -/
structure ChildAdmitted (s : Store) (handoff : OcrHandoff) : Prop where
  lineage : ∃ row ∈ s.ocrLineage, row.handoffId = handoff.handoffId ∧
    row.childRunId = handoff.childRunId
  child : getPipelineRun s handoff.childRunId ≠ none
  root : ∃ run failure, getPipelineRun s handoff.rootRunId = some run ∧ run.state = .failed ∧
    run.failure = some failure ∧ failure.code = "OCR_DERIVED_HANDOFF"

structure Owned (s : Store) : Prop where
  lineage : ∀ row ∈ s.ocrLineage, ∃ handoff ∈ s.ocrHandoffs,
    handoff.handoffId = row.handoffId ∧ isAdmitted handoff.phase = true
  admitted : ∀ handoff ∈ s.ocrHandoffs, isAdmitted handoff.phase = true → ChildAdmitted s handoff
  output : ∀ handoff ∈ s.ocrHandoffs, holdsOutput handoff.phase = true →
    handoff.ocrPdfBytes.isSome = true

structure HandoffInvariant (platform : OcrPlatform) (w : HandoffWorld) : Prop where
  reachable : Reachable platform.codec w.store
  keyed : Keyed w.store
  kept : ∀ handoff ∈ w.store.ocrHandoffs, Streamed platform handoff → Kept platform handoff
  owned : AllTimely w.applications → Owned w.store

/-- Every row is still there, with what it fixed. -/
def RowsLater (platform : OcrPlatform) (s t : Store) : Prop :=
  ∀ a ∈ s.ocrHandoffs, ∃ b ∈ t.ocrHandoffs, RowLater platform a b

/-- One step of the world. -/
structure HandoffChange (platform : OcrPlatform) (w x : HandoffWorld) : Prop where
  called : x.store = w.store ∨ ∃ call : Call, x.store = call.after platform.codec w.store
  applications : w.applications <:+ x.applications
  later : RowsLater platform w.store x.store
  phases : AllTimely x.applications → ∀ a ∈ w.store.ocrHandoffs, ∀ b ∈ x.store.ocrHandoffs,
    a.handoffId = b.handoffId → PhaseMove a.phase b.phase

theorem RowsLater.refl {platform : OcrPlatform} (s : Store) : RowsLater platform s s :=
  fun a mem => ⟨a, mem, .refl a⟩

theorem RowsLater.trans {platform : OcrPlatform} {s t u : Store}
    (left : RowsLater platform s t) (right : RowsLater platform t u) :
    RowsLater platform s u := by
  intro a mem
  obtain ⟨b, mem', first⟩ := left a mem
  obtain ⟨c, mem'', second⟩ := right b mem'
  exact ⟨c, mem'', first.trans second⟩

def handoffDiscipline (platform : OcrPlatform) : Discipline HandoffWorld Nat where
  inv := HandoffInvariant platform
  frame _ w x := RowsLater platform w.store x.store
  change := HandoffChange platform
  frame_refl _ w := .refl w.store
  frame_trans _ _ _ _ := .trans

/-! ## Rows by id -/

section Rows

variable {s : Store} {a b : OcrHandoff} {handoffId : String}

theorem Keyed.unique (keyed : Keyed s) (left : a ∈ s.ocrHandoffs) (right : b ∈ s.ocrHandoffs)
    (same : a.handoffId = b.handoffId) : a = b :=
  List.inj_on_of_nodup_map keyed.ids left right same

theorem mem_of_getOcrHandoff (found : getOcrHandoff s handoffId = some a) :
    a ∈ s.ocrHandoffs ∧ a.handoffId = handoffId :=
  ⟨List.mem_of_find?_eq_some found, by simpa using List.find?_some found⟩

theorem mem_of_getOcrHandoffForRoot {rootRunId} (found : getOcrHandoffForRoot s rootRunId = some a) :
    a ∈ s.ocrHandoffs ∧ a.rootRunId = rootRunId :=
  ⟨List.mem_of_find?_eq_some found, by simpa using List.find?_some found⟩

theorem Keyed.getOcrHandoff (keyed : Keyed s) (mem : a ∈ s.ocrHandoffs) :
    Pipeline.getOcrHandoff s a.handoffId = some a := by
  cases found : Pipeline.getOcrHandoff s a.handoffId with
  | none =>
      have absent := List.find?_eq_none.mp found a mem
      simp at absent
  | some b =>
      obtain ⟨mem', same⟩ := mem_of_getOcrHandoff found
      rw [keyed.unique mem' mem same]

theorem collides_of_root (same : a.rootRunId = b.rootRunId) : a.collides b = true := by
  simp [OcrHandoff.collides, same]

theorem Keyed.apart (keyed : Keyed s) (left : a ∈ s.ocrHandoffs) (right : b ∈ s.ocrHandoffs)
    (collides : a.collides b = true) (collides' : b.collides a = true) : a = b := by
  by_contra differ
  obtain ⟨i, at_i, rfl⟩ := List.mem_iff_getElem.mp left
  obtain ⟨j, at_j, rfl⟩ := List.mem_iff_getElem.mp right
  have pairs := List.pairwise_iff_getElem.mp keyed.distinct
  rcases Nat.lt_trichotomy i j with before | same | after
  · simp [pairs i j at_i at_j before] at collides
  · subst same
    exact differ rfl
  · simp [pairs j i at_j at_i after] at collides'

theorem Keyed.unique_root (keyed : Keyed s) (left : a ∈ s.ocrHandoffs)
    (right : b ∈ s.ocrHandoffs) (same : a.rootRunId = b.rootRunId) : a = b :=
  keyed.apart left right (collides_of_root same) (collides_of_root same.symm)

end Rows

/-! ## What the lifecycle leaves alone -/

theorem terminal_row_stays {codec : Codec} {call : Call} {s : Store} {runId : String}
    {run : PipelineRun} (found : getPipelineRun s runId = some run)
    (terminal : run.state.isTerminal = true) :
    getPipelineRun (call.after codec s) runId = some run := by
  have kept := Machine.path_preserves (P := fun v : RunRows => v.row = some run) ?_
    ((call_follows codec call s).path runId) found
  · exact kept
  · rintro v w ⟨label, -, step⟩ row
    cases step with
    | create absent =>
        rw [row] at absent
        cases absent
    | @move run' m stage reason now eventId row' key state edge =>
        obtain rfl := Option.some.inj (row.symm.trans row')
        rw [state] at terminal
        rw [StateMachine.terminal_has_no_edge terminal] at edge
        cases edge
    | attempt => exact row
    | handOff => exact row

theorem called_of_ok {codec : Codec} {s t : Store} (amb : Ambient) (operation : Operation)
    (done : operation.body codec amb s = .ok ((), t)) :
    Call.after codec ⟨amb, operation⟩ s = t :=
  (@result_of_ok codec ⟨amb, operation⟩ s t done).2

theorem present_row_stays {codec : Codec} {call : Call} {s : Store} {runId : String}
    (present : getPipelineRun s runId ≠ none) :
    getPipelineRun (call.after codec s) runId ≠ none := by
  refine Machine.path_preserves (P := fun v : RunRows => v.row ≠ none) ?_
    ((call_follows codec call s).path runId) present
  rintro v w ⟨label, -, step⟩ row
  cases step with
  | create absent => exact absurd absent row
  | move => exact nofun
  | attempt => exact row
  | handOff => exact row

theorem ChildAdmitted.after {codec : Codec} {call : Call} {s t : Store} {a b : OcrHandoff}
    (h : ChildAdmitted s a) (called : call.after codec s = t) (same : SameOwner a b)
    (lineage : ∀ row ∈ s.ocrLineage, row ∈ t.ocrLineage) : ChildAdmitted t b := by
  subst called
  obtain ⟨⟨row, mem, id, child⟩, present, run, failure, found, failed, fails, code⟩ := h
  rw [same.childRunId] at child present
  rw [same.rootRunId] at found
  refine ⟨⟨row, lineage row mem, id.trans same.handoffId, child⟩, present_row_stays present, ?_⟩
  have terminal : run.state.isTerminal = true := by
    rw [failed]
    rfl
  exact ⟨run, failure, terminal_row_stays found terminal, failed, fails, code⟩

/-! ## Updates -/

section Updates

variable {platform : OcrPlatform} {w : HandoffWorld} {k : Nat} {log : List Application}

theorem updateOcrHandoffs_ok {codec : Codec} {s t : Store} {selected change changed}
    (h : updateOcrHandoffs codec s selected change = .ok (changed, t)) :
    t = { s with ocrHandoffs := s.ocrHandoffs.map fun h => if selected h then change h else h } ∧
      t.ocrHandoffs.Pairwise (fun a b => a.collides b = false) ∧
      changed = (s.ocrHandoffs.filter selected).length := by
  simp only [updateOcrHandoffs, peel_ok, refuseIf_eq_ok, return_ok, exists_const, not_not] at h
  obtain ⟨-, distinct, h⟩ := h
  obtain ⟨rfl, rfl⟩ := Prod.mk.inj h
  exact ⟨rfl, distinct, rfl⟩

theorem AllTimely.suffix {earlier : List Application} (h : AllTimely log)
    (suffix : earlier <:+ log) : AllTimely earlier :=
  fun application mem => h application (suffix.subset mem)

theorem allows_same (inv : HandoffInvariant platform w) (suffix : w.applications <:+ log) :
    (handoffDiscipline platform).Allows k w ⟨w.store, log⟩ where
  inv := ⟨inv.reachable, inv.keyed, inv.kept, fun timely => inv.owned (timely.suffix suffix)⟩
  frame _ _ := .refl w.store
  change := by
    refine ⟨.inl rfl, suffix, .refl w.store, ?_⟩
    intro _ a mem b mem' same
    exact .inl (congrArg _ (inv.keyed.unique mem mem' same))

theorem allows_update {selected : OcrHandoff → Bool} {change : OcrHandoff → OcrHandoff}
    {changed : Nat} {t : Store} {call : Call} (inv : HandoffInvariant platform w)
    (updated : updateOcrHandoffs platform.codec w.store selected change = .ok (changed, t))
    (called : call.after platform.codec w.store = t) (suffix : w.applications <:+ log)
    (steps : ∀ a ∈ w.store.ocrHandoffs, selected a = true →
      RowStep platform (AllTimely log) a (change a)) :
    (handoffDiscipline platform).Allows k w ⟨t, log⟩ := by
  obtain ⟨rfl, distinct, -⟩ := updateOcrHandoffs_ok updated
  have moves : ∀ a ∈ w.store.ocrHandoffs,
      RowStep platform (AllTimely log) a (if selected a then change a else a) := by
    intro a mem
    by_cases chosen : selected a = true
    · simp only [chosen, if_true]
      exact steps a mem chosen
    · simp only [chosen]
      exact ⟨.refl a, fun _ kept => kept, fun _ => .inl rfl, fun _ => rfl,
        fun _ output => output⟩
  have later : RowsLater platform w.store { w.store with
      ocrHandoffs := w.store.ocrHandoffs.map fun h => if selected h then change h else h } := by
    intro a mem
    exact ⟨_, List.mem_map_of_mem mem, (moves a mem).later⟩
  have ids : (w.store.ocrHandoffs.map fun h => if selected h then change h else h).map
      (·.handoffId) = w.store.ocrHandoffs.map (·.handoffId) := by
    rw [List.map_map]
    apply List.map_congr_left
    intro a mem
    exact (moves a mem).later.owner.handoffId.symm
  have keyed : Keyed { w.store with
      ocrHandoffs := w.store.ocrHandoffs.map fun h => if selected h then change h else h } :=
    ⟨ids ▸ inv.keyed.ids, distinct, inv.keyed.lineage⟩
  refine ⟨⟨called ▸ inv.reachable.after call, keyed, ?_, ?_⟩, fun _ _ => later, ?_⟩
  · intro b present streamed
    obtain ⟨a, mem, rfl⟩ := List.mem_map.mp present
    have step := moves a mem
    have streamed' : Streamed platform a := streamed.congr step.later.owner.symm
    exact step.kept streamed' (inv.kept a mem streamed')
  · intro timely
    have owned := inv.owned (timely.suffix suffix)
    refine ⟨?_, ?_, ?_⟩
    · intro row mem
      obtain ⟨a, mem', same, admitted⟩ := owned.lineage row mem
      have step := moves a mem'
      exact ⟨_, List.mem_map_of_mem mem', step.later.owner.handoffId.symm.trans same,
        (step.admission timely).trans admitted⟩
    · intro b present admitted
      obtain ⟨a, mem, rfl⟩ := List.mem_map.mp present
      have step := moves a mem
      have before := owned.admitted a mem ((step.admission timely).symm.trans admitted)
      exact before.after called step.later.owner fun _ mem => mem
    · intro b present holds
      obtain ⟨a, mem, rfl⟩ := List.mem_map.mp present
      exact (moves a mem).output timely (owned.output a mem) holds
  · refine ⟨.inr ⟨call, called.symm⟩, suffix, later, ?_⟩
    intro timely a mem b mem' same
    obtain ⟨a', mem'', rfl⟩ := List.mem_map.mp mem'
    have step := moves a' mem''
    obtain rfl := inv.keyed.unique mem mem'' (same.trans step.later.owner.handoffId.symm)
    exact step.phase timely

end Updates

end DocumentSummarizer.Ocr
