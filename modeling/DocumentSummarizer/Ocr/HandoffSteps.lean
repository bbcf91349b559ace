import DocumentSummarizer.Ocr.HandoffRows

/-! # The statements on a handoff

Each update of the handoff table as a step of the row it selects, under what the
runner knows when it issues the statement.
-/

namespace DocumentSummarizer.Ocr

open Library Pipeline

variable {platform : OcrPlatform} {timely : Prop} {a h : OcrHandoff}

/-- A status may be applied in this phase. -/
def Applicable (phase : OcrPhase) : Prop :=
  phase = .submissionUncertain ∨ phase = .running

theorem Applicable.unadmitted {phase : OcrPhase} (h : Applicable phase) :
    isAdmitted phase = false := by
  cases h with
  | inl here => rw [here]; rfl
  | inr here => rw [here]; rfl

theorem Applicable.runs {phase : OcrPhase} (h : Applicable phase) : PhaseMove phase .running := by
  cases h with
  | inl here => exact .inr (here ▸ .accept)
  | inr here => exact .inl here

theorem Applicable.delivers {phase : OcrPhase} (h : Applicable phase) :
    PhaseMove phase .outputReady := by
  cases h with
  | inl here => exact .inr (here ▸ .deliver)
  | inr here => exact .inr (here ▸ .retrieve)

/-! ## Phases -/

theorem unadmitted_of_early {phase : OcrPhase} (h : isEarly phase = true) :
    isAdmitted phase = false ∧ holdsOutput phase = false := by
  cases phase with
  | prepared | submissionUncertain => exact ⟨rfl, rfl⟩
  | running | outputReady | childAdmitted | completed | failed => cases h

theorem rowStep_submission {next : OcrPhase} (edge : Edge h.phase next)
    (from_early : isEarly h.phase = true) (to_early : isEarly next = true) :
    RowStep platform timely h
      { h with phase := next, providerStatusJson := Option.none.or h.providerStatusJson } where
  later := ⟨rfl, fun _ _ saved => saved⟩
  kept _ kept := by
    refine ⟨fun _ => kept.early from_early, kept.pair, ?_⟩
    intro holds
    cases holds.symm.trans (unadmitted_of_early to_early).2
  phase _ := .inr edge
  admission _ := (unadmitted_of_early to_early).1.trans (unadmitted_of_early from_early).1.symm
  output _ _ holds := nomatch holds.symm.trans (unadmitted_of_early to_early).2

theorem rowStep_fail {code message : String} {retryable : Bool}
    (unadmitted : timely → isAdmitted h.phase = false) :
    RowStep platform timely h
      { h with
        phase := .failed, errorCode := some code, errorMessage := some message,
        errorRetryable := some retryable } where
  later := ⟨rfl, fun _ _ saved => saved⟩
  kept _ kept := ⟨nofun, kept.pair, nofun⟩
  phase now := by
    by_cases failed : h.phase = .failed
    · exact .inl failed
    · exact .inr (.fail (unadmitted now) failed)
  admission now := (unadmitted now).symm
  output _ _ := nofun

theorem rowStep_complete (phase : h.phase = .childAdmitted) :
    RowStep platform timely h { h with phase := .completed } where
  later := ⟨rfl, fun _ _ saved => saved⟩
  kept _ kept := by
    refine ⟨nofun, kept.pair, fun _ => ?_⟩
    have ready := kept.ready (by rw [phase]; rfl)
    exact ready
  phase _ := .inr (phase ▸ .complete)
  admission _ := by
    rw [phase]
    rfl
  output _ before _ := before (by rw [phase]; rfl)

/-! ## Inline statuses -/

theorem rowStep_inline_running {encoded : String} (inline : ¬ Streamed platform h)
    (applicable : timely → Applicable h.phase) :
    RowStep platform timely h
      { h with phase := .running, providerStatusJson := (some encoded).or h.providerStatusJson }
    where
  later := ⟨rfl, fun streamed => absurd streamed inline⟩
  kept streamed := absurd streamed inline
  phase now := (applicable now).runs
  admission now := (applicable now).unadmitted.symm
  output _ _ := nofun

/-- The row with the outputs in it. -/
def withOutputs (h : OcrHandoff) (output : OcrOutput) : OcrHandoff :=
  { h with
    phase := .outputReady
    providerStatusJson := some output.providerStatusJson
    ocrPdfArtifactId := some output.pdfArtifactId
    ocrPdfSha256 := some output.pdfSha256
    ocrPdfBytes := some output.pdfBytes
    textArtifactId := some output.textArtifactId
    textSha256 := some output.textSha256
    textBytes := some output.textBytes }

theorem rowStep_inline_outputs {output : OcrOutput} (inline : ¬ Streamed platform h)
    (applicable : timely → Applicable h.phase) :
    RowStep platform timely h (withOutputs h output) where
  later := ⟨rfl, fun streamed => absurd streamed inline⟩
  kept streamed := absurd streamed inline
  phase now := (applicable now).delivers
  admission now := (applicable now).unadmitted.symm
  output _ _ _ := rfl

/-! ## Streamed statuses -/

/-- The status came from the provider. -/
def Decoded (platform : OcrPlatform) (status : Status) : Prop :=
  ∃ value, platform.serde.statusFromValue value = .ok status

variable {status : Status}

theorem completionOf_of_shape (shape : terminalShape status = true)
    (accepted : ¬ (status.status = .accepted ∨ status.status = .processing))
    (error : status.error = none) : completionOf status = status.result := by
  unfold completionOf
  cases state : status.status with
  | accepted => simp [state] at accepted
  | processing => simp [state] at accepted
  | completed => rfl
  | failed => simp [terminalShape, state, error] at shape

theorem shape_of_validate (valid : validate platform h status = .ok ()) :
    terminalShape status = true := by
  simp only [validate, validateStatusIdentity, peel_ok, refuseIf_eq_ok] at valid
  obtain ⟨_, ⟨protocol, -, _, -, shape⟩, -⟩ := valid
  simpa using shape

theorem checkCompletion_saves (checked : checkCompletion platform h status =
      .ok true) (error : status.error = none) (streamed : Streamed platform h) :
    ∀ result, savedCompletion platform.serde h = some result →
      completionOf status = some result := by
  intro result saved
  simp only [checkCompletion, peel_ok] at checked
  obtain ⟨_, valid, completed, found, checked⟩ := checked
  cases completed with
  | false => exact absurd found (hasSavedCompletion_of_saved streamed saved)
  | true =>
      simp only [Bool.true_eq_false, if_false] at checked
      split at checked
      · cases checked
      · next accepted =>
          obtain ⟨previous, decoded, same⟩ := peel_ok.mp checked
          simp only [peel_ok, refuseIf_eq_ok, ne_eq, not_not, exists_const] at same
          obtain ⟨encoded, status', text, read, done, kept⟩ := text_of_savedCompletion saved
          rw [text, Option.getD_some] at decoded
          have agree := reread_of_decodeStatus decoded
          rw [read] at agree
          cases agree
          rw [completionOf_of_shape (shape_of_validate valid) accepted error, ← same.1, kept]

theorem rowStep_save (decoded : Decoded platform status)
    (checked : checkCompletion platform h status = .ok true) (error : status.error = none)
    (applicable : timely → Applicable h.phase) :
    RowStep platform timely h
      { h with
        phase := .running
        providerStatusJson :=
          (some (platform.serde.statusToString status)).or h.providerStatusJson } := by
  obtain ⟨value, decoded⟩ := decoded
  have saves : Streamed platform h → ∀ result,
      savedCompletion platform.serde h = some result →
      savedCompletion platform.serde { h with
        phase := .running
        providerStatusJson :=
          (some (platform.serde.statusToString status)).or h.providerStatusJson } = some result := by
    intro streamed result saved
    rw [savedCompletion_eq rfl (streamed.roundTrips value status decoded)]
    exact checkCompletion_saves checked error streamed result saved
  exact {
    later := ⟨rfl, saves⟩
    kept := by
      intro streamed kept
      refine ⟨nofun, ?_, nofun⟩
      intro stored
      obtain ⟨result, saved, retained⟩ := kept.pair stored
      exact ⟨result, saves streamed result saved, retained⟩
    phase := fun now => (applicable now).runs
    admission := fun now => (applicable now).unadmitted.symm
    output := fun _ _ => nofun }

/-! ## Retrieved outputs -/

/-- The provider confirmed the saved completion of the runner's copy. -/
structure Confirmed (platform : OcrPlatform) (a : OcrHandoff) (status : Status) : Prop where
  saved : ∃ saved, decodeStatus platform.serde (a.providerStatusJson.getD "") = .ok saved ∧
    status.result = saved.result

theorem confirmed_of_ok {response status}
    (h : confirmCompletion platform a response = .ok status) : Confirmed platform a status := by
  simp only [confirmCompletion, peel_ok] at h
  obtain ⟨received, -, h⟩ := h
  cases received with
  | inline => cases h
  | streamed status' =>
      simp only [peel_ok, mapError_ok_iff, refuseIf_eq_ok, return_ok, not_or, ne_eq, not_not] at h
      obtain ⟨_, -, saved, decoded, _, same, rfl⟩ := h
      exact ⟨saved, decoded, same.2⟩

/-- What the runner knows when it stores the pair it retrieved. -/
structure Retrieved (platform : OcrPlatform) (a : OcrHandoff) (pdf text : Descriptor)
    (pdfBytes textBytes : List UInt8) : Prop where
  request : ∃ request, validateSavedRequest platform a = .ok request
  completion : hasSavedCompletion platform a = .ok true
  confirmed : ∃ status, Confirmed platform a status ∧ Ocr.pair status = .ok (pdf, text)
  pdf : verifiedContent platform pdf pdfBytes = .ok pdfBytes
  text : verifiedContent platform text textBytes = .ok textBytes

theorem retains_of_verified {descriptor : Descriptor} {content : List UInt8}
    (h : verifiedContent platform descriptor content = .ok content) :
    retains platform descriptor (some descriptor.artifactId) (some content) = true := by
  simp only [verifiedContent, peel_ok, refuseIf_eq_ok, not_or, ne_eq, not_not] at h
  obtain ⟨_, ⟨size, digest⟩, -⟩ := h
  simp [retains, size, digest]

theorem Retrieved.pair {pdf text : Descriptor} {pdfBytes textBytes : List UInt8}
    (h : Retrieved platform a pdf text pdfBytes textBytes) :
    ∃ encoded saved result, a.providerStatusJson = some encoded ∧
      decodeStatus platform.serde encoded = .ok saved ∧ validate platform a saved = .ok () ∧
      saved.status = .completed ∧ saved.result = some result ∧
      Ocr.pair saved = .ok (pdf, text) ∧
      result.outputs.find? (·.mediaType == ocrInputMediaType) = some pdf ∧
      result.outputs.find? (·.mediaType == textMediaType) = some text := by
  obtain ⟨-, encoded, saved, json, decoded, valid, completed⟩ := hasSavedCompletion_ok h.completion
  obtain ⟨status, confirmed, paired⟩ := h.confirmed
  obtain ⟨saved', decoded', same⟩ := confirmed.saved
  rw [json, Option.getD_some, decoded] at decoded'
  cases decoded'
  obtain ⟨result, found, isPdf, isText⟩ := pair_ok paired
  obtain ⟨pdf', text', savedPair⟩ := validate_pair valid completed
  obtain ⟨result', found', isPdf', isText'⟩ := pair_ok savedPair
  rw [same, found', Option.some.injEq] at found
  subst found
  rw [isPdf, Option.some.injEq] at isPdf'
  rw [isText, Option.some.injEq] at isText'
  subst isPdf' isText'
  exact ⟨encoded, saved, result', json, decoded, valid, completed, found', savedPair, isPdf, isText⟩

theorem validateRetainedPair_ok {request : JobRequest} {encoded : String}
    {pdf text : Descriptor} (requested : validateSavedRequest platform h = .ok request)
    (json : h.providerStatusJson = some encoded)
    (decoded : decodeStatus platform.serde encoded = .ok status)
    (valid : validate platform h status = .ok ()) (paired : Ocr.pair status = .ok (pdf, text))
    (pdf_retained : retains platform pdf h.ocrPdfArtifactId h.ocrPdfBytes = true)
    (text_retained : retains platform text h.textArtifactId h.textBytes = true) :
    validateRetainedPair platform h = .ok () := by
  simp only [validateRetainedPair, peel_ok, okOrElse_eq_ok, refuseIf_eq_ok, not_or,
    Bool.not_eq_false]
  exact ⟨request, requested, encoded, json, status, decoded, (), valid, (pdf, text), paired,
    pdf_retained, text_retained⟩

theorem rowStep_retrieved {pdf text : Descriptor} {pdfBytes textBytes : List UInt8}
    (known : Retrieved platform a pdf text pdfBytes textBytes) (later : RowLater platform a h)
    (phase : h.phase = .running) :
    RowStep platform timely h
      (withOutputs h (retrievedOutput a pdf text pdfBytes textBytes)) := by
  obtain ⟨encoded, saved, result, json, decoded, valid, completed, found, paired, isPdf, isText⟩ :=
    known.pair
  obtain ⟨request, requested⟩ := known.request
  have kept_a : savedCompletion platform.serde a = some result := by
    rw [savedCompletion_eq json (reread_of_decodeStatus decoded)]
    simp only [completionOf, completed, if_true, found]
  have kept_h : Streamed platform h → savedCompletion platform.serde h = some result :=
    fun streamed => later.saved (streamed.congr later.owner.symm) result kept_a
  have text_b : (withOutputs h (retrievedOutput a pdf text pdfBytes textBytes)).providerStatusJson =
      some encoded := by
    simp only [withOutputs, retrievedOutput, json, Option.getD_some]
  have kept_b : savedCompletion platform.serde
      (withOutputs h (retrievedOutput a pdf text pdfBytes textBytes)) = some result := by
    rw [savedCompletion_eq text_b (reread_of_decodeStatus decoded)]
    simp only [completionOf, completed, if_true, found]
  have pdf_retained := retains_of_verified known.pdf
  have text_retained := retains_of_verified known.text
  have same : SameOwner a (withOutputs h (retrievedOutput a pdf text pdfBytes textBytes)) :=
    Eq.trans later.owner rfl
  exact {
    later := by
      refine ⟨rfl, ?_⟩
      intro streamed other other_saved
      rw [kept_h streamed] at other_saved
      cases other_saved
      exact kept_b
    kept := by
      intro _ _
      refine ⟨nofun, ?_, ?_⟩
      · intro _
        exact ⟨result, kept_b, pdf, text, isPdf, isText, pdf_retained, text_retained⟩
      · intro _
        exact validateRetainedPair_ok ((same.request platform).symm.trans requested) text_b decoded
          ((same.validate platform saved).symm.trans valid) paired pdf_retained text_retained
    phase := fun _ => .inr (phase ▸ .retrieve)
    admission := by
      intro _
      rw [phase]
      rfl
    output := fun _ _ _ => rfl }

end DocumentSummarizer.Ocr
