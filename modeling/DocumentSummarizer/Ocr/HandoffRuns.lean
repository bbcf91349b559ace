import DocumentSummarizer.Ocr.RunnerSafety

/-! # Handoffs over whole runs

What the discipline gives for every configuration that any number of runners,
recoveries and operations from outside can reach, and the run in which a status
is applied to a handoff that was moved back.
-/

namespace DocumentSummarizer.Ocr

open Library Pipeline

variable {platform : OcrPlatform}
  {c d : Configuration HandoffWorld Answer OcrConsumerError Served Request Nat}

def Fresh (w : HandoffWorld) : Prop :=
  w.store = Store.empty ∧ w.applications = []

abbrev System (platform : OcrPlatform) : Machine
    (Configuration HandoffWorld Answer OcrConsumerError Served Request Nat)
    (Move Answer OcrConsumerError Served Request Nat) :=
  (consumers platform).machine Fresh

theorem fresh_begins {w : HandoffWorld} (h : Fresh w) :
    HandoffInvariant platform w ∧ ∀ _ : Nat, True := by
  obtain ⟨store, applications⟩ := h
  have handoffs : w.store.ocrHandoffs = [] := congrArg Store.ocrHandoffs store
  have lineage : w.store.ocrLineage = [] := congrArg Store.ocrLineage store
  refine ⟨⟨.of_init store, ⟨?_, ?_, ?_⟩, ?_, fun _ => ⟨?_, ?_, ?_⟩⟩, fun _ => trivial⟩
  · simp [handoffs]
  · simp [handoffs]
  · simp [lineage]
  · simp [handoffs]
  · simp [lineage]
  · simp [handoffs]
  · simp [handoffs]

theorem system_sound (h : (System platform).Reachable c) :
    Processes.Sound (handoffDiscipline platform) (fun _ _ => True) (fun _ _ _ _ => True)
      (fun _ _ _ _ => True) c :=
  consumers_keep.sound (fun _ start => fresh_begins start) h

theorem invariant_of_reachable (h : (System platform).Reachable c) :
    HandoffInvariant platform c.state :=
  (system_sound h).inv

theorem change_of_step (h : (System platform).Reachable c) {label}
    (step : (consumers platform).Step c label d) :
    d.state = c.state ∨ HandoffChange platform c.state d.state :=
  (system_sound h).change consumers_keep step

/-! ## Ownership -/

/-- What holds between roots, handoffs and children. -/
structure Ownership (platform : OcrPlatform) (s : Store) : Prop where
  one_handoff : ∀ a ∈ s.ocrHandoffs, ∀ b ∈ s.ocrHandoffs, a.rootRunId = b.rootRunId → a = b
  lineage : ∀ row ∈ s.ocrLineage, ∃ handoff ∈ s.ocrHandoffs,
    handoff.handoffId = row.handoffId ∧ handoff.childRunId = row.childRunId
  one_child : ∀ left ∈ s.ocrLineage, ∀ right ∈ s.ocrLineage, ∀ a ∈ s.ocrHandoffs,
    ∀ b ∈ s.ocrHandoffs, a.handoffId = left.handoffId → b.handoffId = right.handoffId →
    a.rootRunId = b.rootRunId → left = right
  admitted : ∀ handoff ∈ s.ocrHandoffs,
    (isAdmitted handoff.phase = true ↔ ChildAdmitted s handoff)
  rests : ∀ handoff ∈ s.ocrHandoffs, ∀ root, getPipelineRun s handoff.rootRunId = some root →
    root.state ≠ .normalizing
  repeated : ∀ handoff ∈ s.ocrHandoffs, isAdmitted handoff.phase = true →
    ∃ child, getPipelineRun s handoff.childRunId = some child ∧
      ∀ amb copy document run, copy.handoffId = handoff.handoffId →
        admitOcrChild platform.codec amb copy document run s = .ok (child, s)
  cancelled : ∀ handoff ∈ s.ocrHandoffs, ∀ root,
    getPipelineRun s handoff.rootRunId = some root →
    root.state = .cancelling ∨ root.state = .cancelled →
    isAdmitted handoff.phase = false ∧ ∀ row ∈ s.ocrLineage, row.handoffId ≠ handoff.handoffId

/-- Every handoff stays, with its owner, and takes at most one edge. -/
def PhasesMove (s t : Store) : Prop :=
  ∀ a ∈ s.ocrHandoffs, ∃ b ∈ t.ocrHandoffs, SameOwner a b ∧ PhaseMove a.phase b.phase

section Ownership

variable {s : Store} {handoff : OcrHandoff}

/-- Admission and the lineage row go together. -/
theorem Owned.admitted_iff (owned : Owned s) (keyed : Keyed s) (mem : handoff ∈ s.ocrHandoffs) :
    isAdmitted handoff.phase = true ↔ ChildAdmitted s handoff := by
  constructor
  · exact owned.admitted handoff mem
  · intro child
    obtain ⟨row, present, id, -⟩ := child.lineage
    obtain ⟨other, mem', same, admitted⟩ := owned.lineage row present
    obtain rfl := keyed.unique mem' mem (same.trans id)
    exact admitted

theorem repeated_admission (owned : Owned s) (keyed : Keyed s) (mem : handoff ∈ s.ocrHandoffs)
    (admitted : isAdmitted handoff.phase = true) :
    ∃ child, getPipelineRun s handoff.childRunId = some child ∧
      ∀ amb copy document run, copy.handoffId = handoff.handoffId →
        admitOcrChild platform.codec amb copy document run s = .ok (child, s) := by
  obtain ⟨child, row⟩ := Option.ne_none_iff_exists'.mp (owned.admitted handoff mem admitted).child
  have holds : holdsOutput handoff.phase = true := by
    simp only [holdsOutput, admitted, Bool.or_true]
  obtain ⟨pdf, retained⟩ := Option.isSome_iff_exists.mp (owned.output handoff mem holds)
  refine ⟨child, row, ?_⟩
  intro amb copy document run same
  have found : getOcrHandoff s copy.handoffId = some handoff := same ▸ keyed.getOcrHandoff mem
  have phase : handoff.phase = .childAdmitted ∨ handoff.phase = .completed := by
    simpa [isAdmitted] using admitted
  simp only [admitOcrChild, peel_ok, okOrElse_eq_ok]
  refine ⟨handoff, found, pdf, retained, ?_⟩
  rw [if_pos phase]
  exact peel_ok.mpr ⟨child, okOrElse_eq_ok.mpr row, rfl⟩

theorem handedOff_of_mem (mem : handoff ∈ s.ocrHandoffs) :
    (s.rowsOf handoff.rootRunId).handedOff = true :=
  List.any_eq_true.mpr ⟨handoff, mem, by simp⟩

theorem ownership_of_invariant {w : HandoffWorld} (inv : HandoffInvariant platform w)
    (timely : AllTimely w.applications) : Ownership platform w.store := by
  have owned := inv.owned timely
  have keyed := inv.keyed
  refine ⟨?_, ?_, ?_, ?_, ?_, ?_, ?_⟩
  · intro a left b right same
    exact keyed.unique_root left right same
  · intro row mem
    obtain ⟨handoff, mem', same, admitted⟩ := owned.lineage row mem
    obtain ⟨row', present, id, child⟩ := (owned.admitted handoff mem' admitted).lineage
    obtain rfl := List.inj_on_of_nodup_map keyed.lineage present mem (id.trans same)
    exact ⟨handoff, mem', same, child.symm⟩
  · intro left memL right memR a memA b memB idA idB same
    obtain rfl := keyed.unique_root memA memB same
    exact List.inj_on_of_nodup_map keyed.lineage memL memR (idA.symm.trans idB)
  · intro handoff mem
    exact owned.admitted_iff keyed mem
  · intro handoff mem root found normalizing
    rcases (inv.reachable.handedOffRests handoff.rootRunId).rests root found
      (handedOff_of_mem mem) with state | state | state | state <;>
      rw [normalizing] at state <;> cases state
  · intro handoff mem admitted
    exact repeated_admission owned keyed mem admitted
  · intro handoff mem root found stopping
    have unadmitted : isAdmitted handoff.phase = false := by
      cases admitted : isAdmitted handoff.phase with
      | false => rfl
      | true =>
          obtain ⟨run, failure, found', failed, -⟩ := (owned.admitted handoff mem admitted).root
          rw [found, Option.some.injEq] at found'
          subst found'
          rcases stopping with state | state <;> rw [failed] at state <;> cases state
    refine ⟨unadmitted, ?_⟩
    intro row mem' same
    obtain ⟨other, mem'', id, admitted⟩ := owned.lineage row mem'
    obtain rfl := keyed.unique mem'' mem (id.trans same)
    rw [unadmitted] at admitted
    cases admitted

end Ownership

theorem phasesMove_of_step (h : (System platform).Reachable c) {label}
    (step : (consumers platform).Step c label d) (timely : AllTimely d.state.applications) :
    PhasesMove c.state.store d.state.store := by
  rcases change_of_step h step with same | change
  · rw [same]
    exact fun a mem => ⟨a, mem, rfl, .inl rfl⟩
  · intro a mem
    obtain ⟨b, mem', later⟩ := change.later a mem
    exact ⟨b, mem', later.owner, change.phases timely a mem b mem' later.owner.handoffId⟩

/-- Whatever runs beside what: as long as no stale status is applied, roots, handoffs and children
belong together, and phases move along the edges. -/
theorem handoff_ownership (reachable : (System platform).Reachable c)
    (timely : AllTimely c.state.applications) :
    Ownership platform c.state.store ∧
      ∀ label d, (consumers platform).Step c label d → AllTimely d.state.applications →
        PhasesMove c.state.store d.state.store :=
  ⟨ownership_of_invariant (invariant_of_reachable reachable) timely,
    fun _ _ step timely => phasesMove_of_step reachable step timely⟩

/-! ## A handoff that is moved back under a submission -/

/-- A PDF of one page without text. -/
def samplePdfText : String :=
  "%PDF-1.4\n1 0 obj\n<</Type/Catalog/Pages 2 0 R>>\nendobj\n" ++
  "2 0 obj\n<</Type/Pages/Kids[3 0 R]/Count 1>>\nendobj\n" ++
  "3 0 obj\n<</Type/Page/Parent 2 0 R/MediaBox[0 0 9 9]>>\nendobj\n" ++
  "xref\n0 4\n0000000000 65535 f \n0000000009 00000 n \n0000000054 00000 n \n" ++
  "0000000105 00000 n \ntrailer\n<</Size 4/Root 1 0 R>>\nstartxref\n166\n%%EOF\n"

def samplePdfSha256 : String :=
  "cb5761263705b2db57400f2fc0e7d138ea3dc64730d0abd815e977df9cc66ef9"

def sampleV4 : Nat → String
  | 0 => "00000001-0000-4000-8000-000000000000"
  | 1 => "00000002-0000-4000-8000-000000000000"
  | 2 => "00000003-0000-4000-8000-000000000000"
  | 3 => "00000004-0000-4000-8000-000000000000"
  | _ => "00000005-0000-4000-8000-000000000000"

def sampleProvider : LiveOcrProvider where
  appId := "document-ocr"
  instanceId := "00000009-0000-4000-8000-000000000000"
  baseUrl := "http://127.0.0.1:4000/"
  protocolVersion := 2

def sampleJobRequest : JobRequest where
  protocolVersion := 2
  jobId := sampleV4 2
  capability := ⟨"document.ocr", "1.0"⟩
  inputs := [⟨sampleV4 1, "application/pdf", 306, samplePdfSha256, "scan.pdf",
    "document-summarizer"⟩]
  parameters := []

def sampleRequestText : String :=
  "\x7b\"protocol_version\":2,\"job_id\":\"" ++ sampleV4 2 ++
  "\",\"capability\":\x7b\"id\":\"document.ocr\",\"version\":\"1.0\"\x7d," ++
  "\"inputs\":[\x7b\"artifact_id\":\"" ++ sampleV4 1 ++
  "\",\"media_type\":\"application/pdf\",\"byte_size\":306,\"sha256\":\"" ++ samplePdfSha256 ++
  "\",\"display_name\":\"scan.pdf\",\"source_app_id\":\"document-summarizer\"\x7d]," ++
  "\"parameters\":\x7b\x7d\x7d"

def sampleAccepted : JobStatus OutputArtifact where
  protocolVersion := 2
  jobId := sampleV4 2
  capability := ⟨"document.ocr", "1.0"⟩
  provider := ⟨"document-ocr", sampleProvider.instanceId⟩
  status := .accepted
  createdAt := 0
  updatedAt := 0
  inputArtifacts := [⟨sampleV4 1, "application/pdf", 306, samplePdfSha256⟩]
  result := none
  error := none

def sampleAcceptedText : String :=
  "\x7b\"protocol_version\":2,\"job_id\":\"" ++ sampleV4 2 ++
  "\",\"capability\":\x7b\"id\":\"document.ocr\",\"version\":\"1.0\"\x7d," ++
  "\"provider\":\x7b\"app_id\":\"document-ocr\",\"instance_id\":\"" ++
  sampleProvider.instanceId ++ "\"\x7d,\"status\":\"accepted\"," ++
  "\"created_at\":\"1970-01-01T00:00:00Z\",\"updated_at\":\"1970-01-01T00:00:00Z\"," ++
  "\"input_artifacts\":[\x7b\"artifact_id\":\"" ++ sampleV4 1 ++
  "\",\"media_type\":\"application/pdf\",\"byte_size\":306,\"sha256\":\"" ++ samplePdfSha256 ++
  "\"\x7d]\x7d"

def sampleNotFoundText : String :=
  "\x7b\"protocol_version\":2,\"error\":\x7b\"code\":\"JOB_NOT_FOUND\"," ++
  "\"message\":\"No such job.\",\"retryable\":false\x7d\x7d"

/-- `serde_json` on the texts of the sample run. -/
def sampleSerde : SerdeJson where
  fromSlice _ := .error "expected value at line 1 column 1"
  located _ message := message
  statusFromValue _ := .error "invalid type"
  envelopeFromValue _ := .error "invalid type"
  statusToString _ := ""
  inlineStatusFromSlice bytes :=
    if bytes = utf8 sampleAcceptedText then .ok sampleAccepted
    else .error "expected value at line 1 column 1"
  inlineEnvelopeFromSlice bytes :=
    if bytes = utf8 sampleNotFoundText then .ok ⟨2, ⟨"JOB_NOT_FOUND", "No such job.", false⟩⟩
    else .error "expected value at line 1 column 1"
  inlineStatusToString _ := sampleAcceptedText
  requestFromStr text :=
    if text = sampleRequestText then .ok sampleJobRequest
    else .error "expected value at line 1 column 1"
  requestToString _ := sampleRequestText

/-- SHA-256 on the two texts that are hashed. -/
def sampleDigest (bytes : List UInt8) : String :=
  if bytes = utf8 samplePdfText then samplePdfSha256
  else if bytes = utf8 sampleRequestText then
    "0d6b90fa6be3173502ed3c963abfbc6dcb3c76cb4aacb0e2d8ccd65fd982b55f"
  else ""

def samplePlatform : OcrPlatform where
  codec := { sampleCodec with sha256Hex := sampleDigest }
  serde := sampleSerde
  base64Decode _ := none
  base64Encode _ := ""
  pdfPages bytes := if bytes = utf8 samplePdfText then some 1 else none
  canonicalTaggedOcrText _ := .error "no tagged text"
  isLoopbackUrl url := url == sampleProvider.baseUrl
  expectedDerivedPath handoffId := "/data/ocr-derived/" ++ handoffId ++ ".pdf"

/-- What the environment answers in the `n`-th step, unless the step says otherwise. -/
def sampleAnswer (n : Nat) : Answer where
  ambient := sampleAmbient (n + 1)
  fault := none
  cancellationRequested := false
  expired := false
  providers := .ok [sampleProvider]
  source := .ok (utf8 samplePdfText)
  response := .error (.uncertain "timed out")
  output := .error (.uncertain "timed out")
  temporary := .ok ()
  reread := .error "no file"
  materialized := .ok ()

def acceptedAnswer : Answer :=
  { sampleAnswer 9 with response := .ok ⟨202, none, utf8 sampleAcceptedText, none⟩ }

def notFoundAnswer : Answer :=
  { sampleAnswer 9 with response := .ok ⟨404, none, utf8 sampleNotFoundText, none⟩ }

def scannedDocument : IngestedDocument where
  documentId := "document"
  originalFilename := "scan.pdf"
  fileType := "pdf"
  sourceType := .nativeText
  byteSize := 306
  contentHash := samplePdfSha256
  localSourcePath := "/originals/document.pdf"
  createdAt := 0

abbrev SampleTurn := Processes.Turn Answer Request Nat

def perform (n : Nat) (operation : Operation) (outside : isOutside operation = true) :
    List SampleTurn :=
  [.spawn n (.perform operation outside), .step n (sampleAnswer n)]

/-- The root is parsed and turns out to need OCR. -/
def scanned : List SampleTurn :=
  perform 0 (.persistIngestion scannedDocument (prepareReceivedRun "root" "document" 0)
      (some sampleModelProfile) .general) rfl ++
    perform 1 (.startParsing "root" 3) rfl ++
    perform 2 (.completeParsing "root" 4
      ⟨"document", "pdf", "1", .nativeText, [⟨1, "", [], true⟩], []⟩ []) rfl

/-- A first runner creates the handoff and marks its submission. -/
def submitted : List SampleTurn :=
  .spawn 3 (.processScannedDocument 3 "root") ::
    (List.replicate 7 (.step 3 (sampleAnswer 3)) ++
      [.step 3 { sampleAnswer 3 with ambient := ⟨fun _ => 0, sampleV4⟩ }] ++
      List.replicate 4 (.step 3 (sampleAnswer 3)))

/-- A second runner polls, hears that there is no such job and moves the handoff back. -/
def movedBack : List SampleTurn :=
  .spawn 4 (.processScannedDocument 3 "root") ::
    (List.replicate 6 (.step 4 (sampleAnswer 4)) ++ [.step 4 notFoundAnswer] ++
      List.replicate 2 (.step 4 (sampleAnswer 4)))

/-- The first runner reads the handoff back, submits and hears that the job is accepted. -/
def acceptedLate : List SampleTurn :=
  [.step 3 (sampleAnswer 3), .step 3 acceptedAnswer, .step 3 (sampleAnswer 3)]

def freshStart : Configuration HandoffWorld Answer OcrConsumerError Served Request Nat :=
  ⟨⟨Store.empty, []⟩, fun _ => none⟩

/-- The phases after the turns and after one more step of the first runner. -/
def phasesAround (turns : List SampleTurn) : Option (List OcrPhase × List OcrPhase) :=
  ((consumers samplePlatform).follow turns freshStart).bind fun c =>
    ((consumers samplePlatform).follow [.step 3 (sampleAnswer 3)] c).map fun d =>
      (c.state.store.ocrHandoffs.map (·.phase), d.state.store.ocrHandoffs.map (·.phase))

private theorem accepted_late_phases :
    phasesAround (scanned ++ submitted ++ movedBack ++ acceptedLate) =
      some ([.prepared], [.running]) := by
  decide +kernel

theorem fresh_reachable : (System platform).Reachable freshStart :=
  .of_init ⟨⟨rfl, rfl⟩, fun _ => rfl⟩

/-- The acceptance is applied to the handoff that was moved back: from `prepared` to `running`. -/
theorem accepted_after_moved_back :
    ¬ ∀ (platform : OcrPlatform) c, (System platform).Reachable c →
      Ownership platform c.state.store ∧
        ∀ label d, (consumers platform).Step c label d →
          PhasesMove c.state.store d.state.store := by
  intro claimed
  obtain ⟨c, reached, after⟩ := Option.bind_eq_some_iff.mp accepted_late_phases
  obtain ⟨d, followed, phases⟩ := Option.map_eq_some_iff.mp after
  obtain ⟨before, later⟩ := Prod.mk.inj phases
  obtain ⟨-, moves⟩ := claimed samplePlatform c
    (Processes.follow_reachable fresh_reachable reached)
  obtain ⟨a, mem, phase⟩ := List.mem_map.mp (before ▸ List.mem_singleton.mpr rfl :
    OcrPhase.prepared ∈ c.state.store.ocrHandoffs.map (·.phase))
  obtain ⟨b, mem', -, move⟩ := moves _ d (Processes.step_of_follow followed) a mem
  have running : b.phase = .running := by
    have present := List.mem_map_of_mem (f := (·.phase)) mem'
    rw [later] at present
    exact List.mem_singleton.mp present
  rw [phase, running] at move
  rcases move with same | edge
  · cases same
  · cases edge

/-- The first runner alone: its submission is accepted while it is uncertain. -/
def acceptedInTime : List SampleTurn :=
  scanned ++ submitted ++ acceptedLate ++ [.step 3 (sampleAnswer 3)]

private theorem accepted_in_time_phases :
    ((consumers samplePlatform).follow acceptedInTime freshStart).map (fun c =>
      (c.state.store.ocrHandoffs.map (·.phase), c.state.applications.map (·.readBack))) =
      some ([.running], [.submissionUncertain]) := by
  decide +kernel

theorem accepted_handoff_owned : ∃ c, (System samplePlatform).Reachable c ∧
    c.state.store.ocrHandoffs.map (·.phase) = [.running] ∧
    Ownership samplePlatform c.state.store := by
  obtain ⟨c, reached, facts⟩ := Option.map_eq_some_iff.mp accepted_in_time_phases
  obtain ⟨phases, read⟩ := Prod.mk.inj facts
  have timely : AllTimely c.state.applications := by
    intro application mem
    have present := List.mem_map_of_mem (f := (·.readBack)) mem
    rw [read] at present
    exact .inl (.inl (List.mem_singleton.mp present))
  have reachable : (System samplePlatform).Reachable c :=
    Processes.follow_reachable fresh_reachable reached
  exact ⟨c, reachable, phases, (handoff_ownership reachable timely).1⟩

end DocumentSummarizer.Ocr
