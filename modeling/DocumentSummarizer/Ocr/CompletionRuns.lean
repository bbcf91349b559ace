import DocumentSummarizer.Ocr.HandoffRuns

/-! # A saved completion is final

Along every run a completion that was saved for a streamed handoff keeps its
result, whatever statuses arrive late, and what is retained is the pair that the
result describes.
-/

namespace DocumentSummarizer.Ocr

open Library Pipeline

variable {platform : OcrPlatform} {s t : Store} {a b handoff : OcrHandoff} {status : Status}
  {c d : Configuration HandoffWorld Answer OcrConsumerError Served Request Nat}

/-! ## Late statuses -/

theorem row_of_update {codec : Codec} {selected : OcrHandoff → Bool}
    {change : OcrHandoff → OcrHandoff} {count : Nat} (keyed : Keyed s)
    (updated : updateOcrHandoffs codec s selected change = .ok (count, t))
    (ids : ∀ h, (change h).handoffId = h.handoffId) (mem : a ∈ s.ocrHandoffs)
    (mem' : b ∈ t.ocrHandoffs) (same : b.handoffId = a.handoffId) :
    b = a ∨ (selected a = true ∧ b = change a) := by
  obtain ⟨rfl, -, -⟩ := updateOcrHandoffs_ok updated
  obtain ⟨h, present, rfl⟩ := List.mem_map.mp mem'
  by_cases chosen : selected h = true
  · simp only [chosen, if_true] at same ⊢
    obtain rfl := keyed.unique present mem ((ids h).symm.trans same)
    exact .inr ⟨chosen, rfl⟩
  · simp only [chosen] at same ⊢
    exact .inl (keyed.unique present mem same)

/-- What applying a status makes of the row. -/
structure Saved (platform : OcrPlatform) (a : OcrHandoff) (status : Status) (b : OcrHandoff) :
    Prop where
  phase : b.phase = .running
  text : b.providerStatusJson = some (platform.serde.statusToString status)
  agrees : ∀ result, savedCompletion platform.serde a = some result →
    completionOf status = some result

/-- The row failed with the status it had. -/
structure Failed (a b : OcrHandoff) : Prop where
  phase : b.phase = .failed
  text : b.providerStatusJson = a.providerStatusJson

theorem row_of_fail {current : OcrHandoff} {code message : String} {retryable : Bool}
    {outcome : Except OcrConsumerError Unit} (keyed : Keyed s) (mem : a ∈ s.ocrHandoffs)
    (mem' : b ∈ (andReturn (failOcrHandoff platform.codec current.handoffId current.phase code
      message retryable s) s outcome).2.ocrHandoffs) (same : b.handoffId = a.handoffId) :
    b = a ∨ Failed a b := by
  cases failed : failOcrHandoff platform.codec current.handoffId current.phase code message
      retryable s with
  | error e =>
      rw [failed] at mem'
      exact .inl (keyed.unique mem' mem same)
  | ok done =>
      rw [failed] at mem'
      obtain ⟨result, u⟩ := done
      simp only [failOcrHandoff, peel_ok, return_ok] at failed
      obtain ⟨⟨count, v⟩, updated, failed⟩ := failed
      obtain ⟨-, rfl⟩ := Prod.mk.inj failed
      rcases row_of_update keyed updated (fun _ => rfl) mem mem' same with unchanged | ⟨-, rfl⟩
      · exact .inl unchanged
      · exact .inr ⟨rfl, rfl⟩

/-- A status that arrives late leaves the row, fails it, or repeats its completion. -/
theorem saveStatus_row (keyed : Keyed s) (mem : a ∈ s.ocrHandoffs)
    (streamed : Streamed platform a)
    (mem' : b ∈ (saveStatus platform handoff status s).2.ocrHandoffs)
    (same : b.handoffId = a.handoffId) :
    b = a ∨ Failed a b ∨ Saved platform a status b := by
  unfold saveStatus at mem'
  cases found : getOcrHandoff s handoff.handoffId with
  | none =>
      rw [found] at mem'
      exact .inl (keyed.unique mem' mem same)
  | some current =>
      obtain ⟨present, id⟩ := mem_of_getOcrHandoff found
      simp only [found] at mem'
      split at mem'
      · exact .inl (keyed.unique mem' mem same)
      · cases checked : checkCompletion platform current status with
        | error message =>
            simp only [checked] at mem'
            cases row_of_fail keyed mem mem' same with
            | inl unchanged => exact .inl unchanged
            | inr failed => exact .inr (.inl failed)
        | ok saves =>
            cases saves with
            | false =>
                simp only [checked] at mem'
                exact .inl (keyed.unique mem' mem same)
            | true =>
                simp only [checked] at mem'
                cases error : status.error with
                | some error' =>
                    simp only [error] at mem'
                    cases row_of_fail keyed mem mem' same with
                    | inl unchanged => exact .inl unchanged
                    | inr failed => exact .inr (.inl failed)
                | none =>
                    simp only [error] at mem'
                    cases moved : transitionOcrHandoff platform.codec current.handoffId
                        current.phase .running
                        (some (platform.serde.statusToString status)) s with
                    | error e =>
                        rw [moved] at mem'
                        exact .inl (keyed.unique mem' mem same)
                    | ok done =>
                        rw [moved] at mem'
                        obtain ⟨result, u⟩ := done
                        simp only [transitionOcrHandoff, peel_ok, return_ok] at moved
                        obtain ⟨⟨count, v⟩, updated, moved⟩ := moved
                        obtain ⟨-, rfl⟩ := Prod.mk.inj moved
                        rcases row_of_update keyed updated (fun _ => rfl) mem mem' same with
                          unchanged | ⟨chosen, rfl⟩
                        · exact .inl unchanged
                        · simp only [decide_eq_true_eq] at chosen
                          obtain rfl := keyed.unique mem present chosen.1
                          exact .inr (.inr ⟨rfl, rfl, checkCompletion_saves checked error streamed⟩)

/-! ## Runs -/

theorem rowsLater_of_run {labels} (reachable : (System platform).Reachable c)
    (run : (System platform).Run c labels d) : RowsLater platform c.state.store d.state.store := by
  induction run with
  | nil => exact .refl _
  | cons step rest ih =>
      refine RowsLater.trans ?_ (ih (reachable.next step))
      cases change_of_step reachable step with
      | inl same =>
          rw [same]
          exact .refl _
      | inr change => exact change.later

/-- Once a completion is saved for a handoff of the streamed protocol, every later state has it and
is past the submission; a late status leaves the handoff, fails it or repeats the completion; and
whatever is retained is the pair of that completion. -/
theorem saved_completion_final (roundTrips : RoundTrips platform.serde)
    (reachable : (System platform).Reachable c) :
    (∀ labels d, (System platform).Run c labels d →
      ∀ a ∈ c.state.store.ocrHandoffs, savedProtocol platform a = .ok 3 →
      ∀ result, savedCompletion platform.serde a = some result →
      ∃ b ∈ d.state.store.ocrHandoffs, SameOwner a b ∧
        savedCompletion platform.serde b = some result ∧ isEarly b.phase = false) ∧
    (∀ handoff status, Decoded platform status →
      ∀ a ∈ c.state.store.ocrHandoffs, savedProtocol platform a = .ok 3 →
      ∀ b ∈ (saveStatus platform handoff status c.state.store).2.ocrHandoffs,
      b.handoffId = a.handoffId → b = a ∨ Failed a b ∨
        (Saved platform a status b ∧
          savedCompletion platform.serde b = completionOf status)) ∧
    (∀ a ∈ c.state.store.ocrHandoffs, savedProtocol platform a = .ok 3 →
      (a.ocrPdfBytes.isSome = true ∨ a.textBytes.isSome = true →
        ∃ result, savedCompletion platform.serde a = some result ∧ Retains platform a result) ∧
      (holdsOutput a.phase = true → validateRetainedPair platform a = .ok ())) := by
  have inv := invariant_of_reachable reachable
  refine ⟨?_, ?_, ?_⟩
  · intro labels d run a mem protocol result saved
    obtain ⟨b, mem', later⟩ := rowsLater_of_run reachable run a mem
    have kept_result := later.saved ⟨protocol, roundTrips⟩ result saved
    have streamed : Streamed platform b := Streamed.congr ⟨protocol, roundTrips⟩ later.owner
    have kept := (invariant_of_reachable (reachable.extend run)).kept b mem' streamed
    exact ⟨b, mem', later.owner, kept_result, kept.phase_of_savedCompletion kept_result⟩
  · intro handoff status decoded a mem protocol b mem' same
    rcases saveStatus_row inv.keyed mem ⟨protocol, roundTrips⟩ mem' same with
      unchanged | failed | saved
    · exact .inl unchanged
    · exact .inr (.inl failed)
    · obtain ⟨value, decoded⟩ := decoded
      exact .inr (.inr ⟨saved, savedCompletion_eq saved.text (roundTrips value status decoded)⟩)
  · intro a mem protocol
    have kept := inv.kept a mem ⟨protocol, roundTrips⟩
    exact ⟨kept.pair, kept.ready⟩

/-! ## A completion that is saved -/

def streamedProvider : LiveOcrProvider :=
  { sampleProvider with protocolVersion := 3 }

def streamedJobRequest : JobRequest :=
  { sampleJobRequest with protocolVersion := 3, capability := ⟨"document.ocr", "1.1"⟩ }

def streamedRequestText : String :=
  "\x7b\"protocol_version\":3,\"job_id\":\"" ++ sampleV4 2 ++
  "\",\"capability\":\x7b\"id\":\"document.ocr\",\"version\":\"1.1\"\x7d," ++
  "\"inputs\":[\x7b\"artifact_id\":\"" ++ sampleV4 1 ++
  "\",\"media_type\":\"application/pdf\",\"byte_size\":306,\"sha256\":\"" ++ samplePdfSha256 ++
  "\",\"display_name\":\"scan.pdf\",\"source_app_id\":\"document-summarizer\"\x7d]," ++
  "\"parameters\":\x7b\x7d\x7d"

def sampleOutputPdf : Descriptor where
  artifactId := "00000006-0000-4000-8000-000000000000"
  mediaType := "application/vnd.local-connect.ocr-pdf"
  displayName := "scan.ocr.pdf"
  byteSize := 4
  sha256 := "315d429b7714cedb6ad04ac31240145257692630457f3c88253c5beceac76027"

def sampleOutputText : Descriptor where
  artifactId := "00000007-0000-4000-8000-000000000000"
  mediaType := "text/plain"
  displayName := "scan.txt"
  byteSize := 4
  sha256 := "982d9e3eb996f559e633f4d194def3761d909f5a3b647d1a851fead67c32c9d1"

def sampleResult : JobResult Descriptor :=
  ⟨[sampleOutputPdf, sampleOutputText]⟩

def sampleCompleted : Status where
  protocolVersion := 3
  jobId := sampleV4 2
  capability := ⟨"document.ocr", "1.1"⟩
  provider := ⟨"document-ocr", sampleProvider.instanceId⟩
  status := .completed
  createdAt := 0
  updatedAt := 0
  inputArtifacts := [⟨sampleV4 1, "application/pdf", 306, samplePdfSha256⟩]
  result := some sampleResult
  error := none

def descriptorText (output : Descriptor) : String :=
  "\x7b\"artifact_id\":\"" ++ output.artifactId ++ "\",\"media_type\":\"" ++ output.mediaType ++
  "\",\"display_name\":\"" ++ output.displayName ++ "\",\"byte_size\":4,\"sha256\":\"" ++
  output.sha256 ++ "\"\x7d"

def sampleCompletedText : String :=
  "\x7b\"protocol_version\":3,\"job_id\":\"" ++ sampleV4 2 ++
  "\",\"capability\":\x7b\"id\":\"document.ocr\",\"version\":\"1.1\"\x7d," ++
  "\"provider\":\x7b\"app_id\":\"document-ocr\",\"instance_id\":\"" ++
  sampleProvider.instanceId ++ "\"\x7d,\"status\":\"completed\"," ++
  "\"created_at\":\"1970-01-01T00:00:00Z\",\"updated_at\":\"1970-01-01T00:00:00Z\"," ++
  "\"input_artifacts\":[\x7b\"artifact_id\":\"" ++ sampleV4 1 ++
  "\",\"media_type\":\"application/pdf\",\"byte_size\":306,\"sha256\":\"" ++ samplePdfSha256 ++
  "\"\x7d],\"result\":\x7b\"outputs\":[" ++ descriptorText sampleOutputPdf ++ "," ++
  descriptorText sampleOutputText ++ "]\x7d\x7d"

def descriptorValue (output : Descriptor) : Gateway.Json :=
  .object [("artifact_id", .string output.artifactId), ("media_type", .string output.mediaType),
    ("display_name", .string output.displayName), ("byte_size", .unsigned output.byteSize),
    ("sha256", .string output.sha256)]

/-- The value that `sampleCompletedText` denotes. -/
def sampleCompletedValue : Gateway.Json :=
  .object [("protocol_version", .unsigned 3), ("job_id", .string (sampleV4 2)),
    ("capability", .object [("id", .string "document.ocr"), ("version", .string "1.1")]),
    ("provider", .object [("app_id", .string "document-ocr"),
      ("instance_id", .string sampleProvider.instanceId)]),
    ("status", .string "completed"), ("created_at", .string "1970-01-01T00:00:00Z"),
    ("updated_at", .string "1970-01-01T00:00:00Z"),
    ("input_artifacts", .array [.object [("artifact_id", .string (sampleV4 1)),
      ("media_type", .string "application/pdf"), ("byte_size", .unsigned 306),
      ("sha256", .string samplePdfSha256)]]),
    ("result", .object [("outputs",
      .array [descriptorValue sampleOutputPdf, descriptorValue sampleOutputText])])]

/-- `serde_json` on the texts of the sample run. -/
def streamedSerde : SerdeJson :=
  { sampleSerde with
    fromSlice := fun bytes =>
      if bytes = utf8 sampleCompletedText then .ok sampleCompletedValue
      else .error "expected value at line 1 column 1"
    statusFromValue := fun value =>
      if (member value "result").isSome then .ok sampleCompleted else .error "invalid type"
    statusToString := fun _ => sampleCompletedText
    requestFromStr := fun text =>
      if text = streamedRequestText then .ok streamedJobRequest
      else .error "expected value at line 1 column 1"
    requestToString := fun _ => streamedRequestText }

theorem streamedSerde_roundTrips : RoundTrips streamedSerde := by
  intro value status read
  have same : status = sampleCompleted := by
    simp only [streamedSerde] at read
    split at read
    · exact (Except.ok.inj read).symm
    · cases read
  have scanned : streamedSerde.fromSlice (utf8 sampleCompletedText) = .ok sampleCompletedValue := by
    simp only [streamedSerde, if_true]
  have decoded : streamedSerde.statusFromValue sampleCompletedValue = .ok sampleCompleted := by
    decide +kernel
  rw [same]
  exact peel_ok.mpr ⟨sampleCompletedValue, scanned, decoded⟩

def streamedDigest (bytes : List UInt8) : String :=
  if bytes = utf8 streamedRequestText then
    "666b9b4a86af63c291030ce264889775e2bb4dc57d626f535fb0ea9ce7054f0e"
  else sampleDigest bytes

def streamedPlatform : OcrPlatform :=
  { samplePlatform with
    codec := { sampleCodec with sha256Hex := streamedDigest }
    serde := streamedSerde }

def streamedAnswer3 : Answer :=
  { sampleAnswer 3 with
    providers := .ok [streamedProvider]
    response := .ok ⟨200, none, utf8 sampleCompletedText, none⟩ }

/-- A runner creates the handoff, submits it and saves the completion it hears of. -/
def completed : List SampleTurn :=
  .spawn 3 (.processScannedDocument 3 "root") ::
    (List.replicate 7 (.step 3 streamedAnswer3) ++
      [.step 3 { streamedAnswer3 with ambient := ⟨fun _ => 0, sampleV4⟩ }] ++
      List.replicate 8 (.step 3 streamedAnswer3))

private theorem completed_saved :
    ((consumers streamedPlatform).follow (scanned ++ completed) freshStart).map (fun c =>
      c.state.store.ocrHandoffs.map fun a =>
        ((savedProtocol streamedPlatform a).toOption, savedCompletion streamedSerde a)) =
      some [(some 3, some sampleResult)] := by
  decide +kernel

/-- The saved completion of the sample run is there in every later state. -/
theorem sample_completion_final : ∃ c, (System streamedPlatform).Reachable c ∧
    ∃ a ∈ c.state.store.ocrHandoffs, savedCompletion streamedSerde a = some sampleResult ∧
      ∀ labels d, (System streamedPlatform).Run c labels d →
        ∃ b ∈ d.state.store.ocrHandoffs, SameOwner a b ∧
          savedCompletion streamedSerde b = some sampleResult ∧ isEarly b.phase = false := by
  obtain ⟨c, reached, rows⟩ := Option.map_eq_some_iff.mp completed_saved
  have reachable : (System streamedPlatform).Reachable c :=
    Processes.follow_reachable fresh_reachable reached
  obtain ⟨a, mem, facts⟩ := List.mem_map.mp (rows ▸ List.mem_singleton.mpr rfl :
    (some 3, some sampleResult) ∈ c.state.store.ocrHandoffs.map fun a =>
      ((savedProtocol streamedPlatform a).toOption, savedCompletion streamedSerde a))
  obtain ⟨three, saved⟩ := Prod.mk.inj facts
  have protocol : savedProtocol streamedPlatform a = .ok 3 := by
    cases found : savedProtocol streamedPlatform a with
    | error e =>
        rw [found] at three
        cases three
    | ok protocol =>
        rw [found] at three
        exact congrArg Except.ok (Option.some.inj three)
  refine ⟨c, reachable, a, mem, saved, ?_⟩
  intro labels d run
  exact (saved_completion_final streamedSerde_roundTrips reachable).1 labels d run a mem protocol
    sampleResult saved

end DocumentSummarizer.Ocr
