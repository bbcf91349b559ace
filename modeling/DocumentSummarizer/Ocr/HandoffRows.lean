import DocumentSummarizer.Ocr.HandoffFrame

/-! # What may happen to one handoff

The edges of a handoff's phase, the columns that never change, and the saved
completion, which once it is there stays and governs what else the row holds.
-/

namespace DocumentSummarizer.Ocr

open Library Pipeline

/-! ## Phases -/

/-- A child was admitted. -/
def isAdmitted (phase : OcrPhase) : Bool :=
  phase == .childAdmitted || phase == .completed

inductive Edge : OcrPhase → OcrPhase → Prop where
  | submit : Edge .prepared .submissionUncertain
  | resubmit : Edge .submissionUncertain .prepared
  | accept : Edge .submissionUncertain .running
  | deliver : Edge .submissionUncertain .outputReady
  | retrieve : Edge .running .outputReady
  | admission : Edge .outputReady .childAdmitted
  | complete : Edge .childAdmitted .completed
  | fail {phase} (admitted : isAdmitted phase = false) (live : phase ≠ .failed) : Edge phase .failed

/-- At most one edge. -/
def PhaseMove (a b : OcrPhase) : Prop :=
  a = b ∨ Edge a b

/-! ## Columns -/

/-- The row as it was inserted. -/
def owner (handoff : OcrHandoff) : OcrHandoff :=
  { handoff with
    phase := .prepared, providerStatusJson := none, ocrPdfArtifactId := none,
    ocrPdfSha256 := none, ocrPdfBytes := none, textArtifactId := none, textSha256 := none,
    textBytes := none, errorCode := none, errorMessage := none, errorRetryable := none }

def SameOwner (a b : OcrHandoff) : Prop :=
  owner a = owner b

namespace SameOwner

variable {a b : OcrHandoff}

/-- What depends on the fixed columns only is the same for both rows. -/
theorem congr {β : Type} (h : SameOwner a b) (f : OcrHandoff → β)
    (fixed : ∀ x, f (owner x) = f x) : f a = f b := by
  rw [← fixed a, ← fixed b]
  exact congrArg f h

theorem handoffId (h : SameOwner a b) : a.handoffId = b.handoffId :=
  h.congr OcrHandoff.handoffId fun _ => rfl

theorem rootRunId (h : SameOwner a b) : a.rootRunId = b.rootRunId :=
  h.congr OcrHandoff.rootRunId fun _ => rfl

theorem childRunId (h : SameOwner a b) : a.childRunId = b.childRunId :=
  h.congr OcrHandoff.childRunId fun _ => rfl

theorem request (h : SameOwner a b) (platform : OcrPlatform) :
    validateSavedRequest platform a = validateSavedRequest platform b :=
  h.congr (validateSavedRequest platform) fun _ => rfl

theorem protocol (h : SameOwner a b) (platform : OcrPlatform) :
    savedProtocol platform a = savedProtocol platform b :=
  h.congr (savedProtocol platform) fun _ => rfl

theorem validate (h : SameOwner a b) (platform : OcrPlatform) (status : Status) :
    Ocr.validate platform a status = Ocr.validate platform b status :=
  h.congr (fun x => Ocr.validate platform x status) fun _ => rfl

end SameOwner

/-! ## The saved completion -/

/-- A saved text, read without the checks of `decodeMetadata`. -/
def reread (serde : SerdeJson) (encoded : String) : Except String Status := do
  let value ← serde.fromSlice (utf8 encoded)
  serde.statusFromValue value

/-- A status that was read once reads the same after it was written again. -/
def RoundTrips (serde : SerdeJson) : Prop :=
  ∀ value status, serde.statusFromValue value = .ok status →
    reread serde (serde.statusToString status) = .ok status

def completionOf (status : Status) : Option (JobResult Descriptor) :=
  if status.status = .completed then status.result else none

/-- The result of the completed status that the handoff keeps. -/
def savedCompletion (serde : SerdeJson) (handoff : OcrHandoff) : Option (JobResult Descriptor) :=
  match handoff.providerStatusJson with
  | none => none
  | some encoded =>
    match reread serde encoded with
    | .error _ => none
    | .ok status => completionOf status

/-- The retained bytes have the ids, lengths and digests of the result's two descriptors. -/
def Retains (platform : OcrPlatform) (handoff : OcrHandoff) (result : JobResult Descriptor) :
    Prop :=
  ∃ pdf text, result.outputs.find? (·.mediaType == ocrInputMediaType) = some pdf ∧
    result.outputs.find? (·.mediaType == textMediaType) = some text ∧
    retains platform pdf handoff.ocrPdfArtifactId handoff.ocrPdfBytes = true ∧
    retains platform text handoff.textArtifactId handoff.textBytes = true

/-- From `output_ready` on the pair is there to be delivered. -/
def holdsOutput (phase : OcrPhase) : Bool :=
  phase == .outputReady || isAdmitted phase

def isEarly (phase : OcrPhase) : Bool :=
  phase == .prepared || phase == .submissionUncertain

/-- What a handoff of the streamed protocol keeps. -/
structure Kept (platform : OcrPlatform) (handoff : OcrHandoff) : Prop where
  early : isEarly handoff.phase = true → handoff.providerStatusJson = none
  pair : handoff.ocrPdfBytes.isSome = true ∨ handoff.textBytes.isSome = true →
    ∃ result, savedCompletion platform.serde handoff = some result ∧
      Retains platform handoff result
  ready : holdsOutput handoff.phase = true → validateRetainedPair platform handoff = .ok ()

/-- The streamed protocol, with a serializer whose texts can be read back. -/
structure Streamed (platform : OcrPlatform) (handoff : OcrHandoff) : Prop where
  protocol : savedProtocol platform handoff = .ok 3
  roundTrips : RoundTrips platform.serde

theorem Streamed.congr {platform : OcrPlatform} {a b : OcrHandoff} (h : Streamed platform a)
    (same : SameOwner a b) : Streamed platform b :=
  ⟨(same.protocol platform).symm.trans h.protocol, h.roundTrips⟩

/-- What no step undoes. -/
structure RowLater (platform : OcrPlatform) (a b : OcrHandoff) : Prop where
  owner : SameOwner a b
  saved : Streamed platform a → ∀ result, savedCompletion platform.serde a = some result →
    savedCompletion platform.serde b = some result

theorem RowLater.refl {platform : OcrPlatform} (a : OcrHandoff) : RowLater platform a a :=
  ⟨rfl, fun _ _ saved => saved⟩

theorem RowLater.trans {platform : OcrPlatform} {a b c : OcrHandoff}
    (left : RowLater platform a b) (right : RowLater platform b c) : RowLater platform a c where
  owner := Eq.trans left.owner right.owner
  saved streamed result saved := by
    exact right.saved (streamed.congr left.owner) result (left.saved streamed result saved)

/-- One step of one row; `timely` says that the statuses applied so far were not stale. -/
structure RowStep (platform : OcrPlatform) (timely : Prop) (a b : OcrHandoff) : Prop where
  later : RowLater platform a b
  kept : Streamed platform a → Kept platform a → Kept platform b
  phase : timely → PhaseMove a.phase b.phase
  /-- Admission is not a step of the row alone. -/
  admission : timely → isAdmitted b.phase = isAdmitted a.phase
  output : timely → (holdsOutput a.phase = true → a.ocrPdfBytes.isSome = true) →
    holdsOutput b.phase = true → b.ocrPdfBytes.isSome = true

/-! ## Reading the saved status -/

section Reading

variable {platform : OcrPlatform} {handoff : OcrHandoff} {status : Status} {encoded : String}

theorem reread_of_decodeStatus (h : decodeStatus platform.serde encoded = .ok status) :
    reread platform.serde encoded = .ok status := by
  simp only [decodeStatus, decodeMetadata, peel_ok] at h
  obtain ⟨_, -, _, -, value, read, _, -, _, -, decoded⟩ := h
  exact peel_ok.mpr ⟨value, read, decoded⟩

theorem statusFromValue_of_decodeMetadata {bytes limit}
    (h : decodeMetadata platform.serde platform.serde.statusFromValue bytes limit = .ok status) :
    ∃ value, platform.serde.statusFromValue value = .ok status := by
  simp only [decodeMetadata, peel_ok] at h
  obtain ⟨_, -, _, -, value, read, _, -, _, -, decoded⟩ := h
  exact ⟨value, decoded⟩

theorem savedCompletion_eq (text : handoff.providerStatusJson = some encoded)
    (read : reread platform.serde encoded = .ok status) :
    savedCompletion platform.serde handoff = completionOf status := by
  simp only [savedCompletion, text, read]

theorem text_of_savedCompletion {result}
    (h : savedCompletion platform.serde handoff = some result) :
    ∃ encoded status, handoff.providerStatusJson = some encoded ∧
      reread platform.serde encoded = .ok status ∧ status.status = .completed ∧
      status.result = some result := by
  unfold savedCompletion at h
  split at h
  · cases h
  · next encoded text =>
      split at h
      · cases h
      · next status read =>
          unfold completionOf at h
          split at h
          · next completed => exact ⟨encoded, status, text, read, completed, h⟩
          · cases h

theorem Kept.phase_of_savedCompletion {result} (h : Kept platform handoff)
    (saved : savedCompletion platform.serde handoff = some result) :
    isEarly handoff.phase = false := by
  obtain ⟨encoded, -, text, -⟩ := text_of_savedCompletion saved
  cases early : isEarly handoff.phase with
  | false => rfl
  | true =>
      have none := h.early early
      rw [text] at none
      cases none

theorem hasSavedCompletion_ok (h : hasSavedCompletion platform handoff = .ok true) :
    savedProtocol platform handoff = .ok 3 ∧ ∃ encoded status, handoff.providerStatusJson = some encoded ∧
      decodeStatus platform.serde encoded = .ok status ∧ validate platform handoff status = .ok () ∧
      status.status = .completed := by
  simp only [hasSavedCompletion, peel_ok] at h
  obtain ⟨protocol, saved, h⟩ := h
  split at h
  · cases h
  · next three =>
      obtain rfl := not_not.mp three
      refine ⟨saved, ?_⟩
      split at h
      · cases h
      · next encoded text =>
          simp only [peel_ok, return_ok] at h
          obtain ⟨status, decoded, _, valid, completed⟩ := h
          exact ⟨encoded, status, text, decoded, valid, by simpa using completed⟩

theorem hasSavedCompletion_of_saved {result} (streamed : Streamed platform handoff)
    (saved : savedCompletion platform.serde handoff = some result) :
    hasSavedCompletion platform handoff ≠ .ok false := by
  intro h
  obtain ⟨encoded, status, text, read, completed, -⟩ := text_of_savedCompletion saved
  simp only [hasSavedCompletion, peel_ok] at h
  obtain ⟨protocol, found, h⟩ := h
  rw [streamed.protocol] at found
  cases found
  simp only [ne_eq, not_true_eq_false, if_false, text, peel_ok, return_ok] at h
  obtain ⟨status', decoded, _, -, other⟩ := h
  have same := reread_of_decodeStatus decoded
  rw [read] at same
  cases same
  simp [completed] at other

theorem pair_ok {pdf text : Descriptor} (h : pair status = .ok (pdf, text)) :
    ∃ result, status.result = some result ∧
      result.outputs.find? (·.mediaType == ocrInputMediaType) = some pdf ∧
      result.outputs.find? (·.mediaType == textMediaType) = some text := by
  simp only [pair, peel_ok, okOrElse_eq_ok, return_ok, Prod.mk.injEq] at h
  obtain ⟨result, found, _, -, pdf', isPdf, text', isText, _, -, _, -, rfl, rfl⟩ := h
  exact ⟨result, found, isPdf, isText⟩

theorem validate_pair (valid : validate platform handoff status = .ok ())
    (completed : status.status = .completed) :
    ∃ pdf text, pair status = .ok (pdf, text) := by
  simp only [validate, validateDescriptors, completed, if_true, peel_ok] at valid
  obtain ⟨_, -, _, -, _, mapped, -⟩ := valid
  cases paired : pair status with
  | error e =>
      rw [paired] at mapped
      cases mapped
  | ok both => exact ⟨both.1, both.2, rfl⟩

end Reading

end DocumentSummarizer.Ocr
