import DocumentSummarizer.Pipeline.CompletedWork

/-! # The integrity of a run's rows

What the stored rows of a run promise to the reads of the next stage: every
artifact carries its own hash and the document of its run, an attempt row has
the synthesis it belongs to, and only a parsed run is handed to OCR.
-/

namespace DocumentSummarizer.Pipeline

open Library

/-! ## Stored artifacts -/

/-- Each stored row is the encoding of its artifact; from `normalized` on, the artifact
belongs to the run's document. -/
structure Intact (codec : Codec) (v : RunRows) : Prop where
  absent : v.row = none → v = .absent
  encoded : ∀ kind row, v.artifacts kind = some row → row = .of codec kind row.artifact
  owned : ∀ run, v.row = some run → ∀ kind, kind ≠ .parsed → ∀ row,
    v.artifacts kind = some row → kind.documentId row.artifact = run.documentId

theorem Intact.start (codec : Codec) : Intact codec .absent where
  absent _ := rfl
  encoded _ _ found := nomatch found
  owned _ row := nomatch row

variable {v : RunRows}

theorem recordArtifact_artifacts {kind other row found}
    (h : (v.recordArtifact kind row).artifacts other = some found) :
    (∃ same : other = kind, found = same ▸ row) ∨ v.artifacts other = some found := by
  by_cases same : other = kind
  · subst same
    simp only [RunRows.recordArtifact, Function.update_self, Option.some.injEq] at h
    exact .inl ⟨rfl, h.symm⟩
  · simp only [RunRows.recordArtifact, Function.update_of_ne same] at h
    exact .inr h

/-- The artifacts a move writes. -/
def Move.Writes : Move → (kind : ArtifactKind) → kind.Artifact → Prop
  | .complete kind artifact _, other, found => ∃ same : other = kind, found = same ▸ artifact
  | .finish summary citations, other, found =>
    (∃ same : other = .summary, found = same ▸ summary) ∨
      ∃ same : other = .citation, found = same ▸ citations
  | _, _, _ => False

theorem Move.record_artifacts {codec : Codec} (m : Move) {kind row}
    (h : (m.record codec v).artifacts kind = some row) :
    (∃ artifact, m.Writes kind artifact ∧ row = .of codec kind artifact) ∨
      v.artifacts kind = some row := by
  cases m with
  | complete written artifact warnings =>
      have recorded : (v.recordArtifact written (.of codec written artifact)).artifacts kind =
          some row := by
        cases written <;> exact h
      rcases recordArtifact_artifacts recorded with ⟨rfl, rfl⟩ | kept
      · exact .inl ⟨artifact, ⟨rfl, rfl⟩, rfl⟩
      · exact .inr kept
  | finish summary citations =>
      rcases recordArtifact_artifacts h with ⟨rfl, rfl⟩ | before
      · exact .inl ⟨citations, .inr ⟨rfl, rfl⟩, rfl⟩
      · rcases recordArtifact_artifacts before with ⟨rfl, rfl⟩ | kept
        · exact .inl ⟨summary, .inl ⟨rfl, rfl⟩, rfl⟩
        · exact .inr kept
  | start | ingest | rewind | fail | requestCancellation | completeCancellation => exact .inr h

theorem Move.writes_owned {run : PipelineRun} {m : Move}
    (permitted : m.Permitted v run) {kind : ArtifactKind} {artifact : kind.Artifact}
    (written : m.Writes kind artifact) (later : kind ≠ .parsed) :
    kind.documentId artifact = run.documentId := by
  cases m with
  | complete =>
      obtain ⟨rfl, rfl⟩ := written
      exact permitted.2.1 later
  | finish =>
      rcases written with ⟨rfl, rfl⟩ | ⟨rfl, rfl⟩
      · exact permitted.1
      · exact permitted.2.1
  | start | ingest | rewind | fail | requestCancellation | completeCancellation => cases written

theorem Intact.step {codec runId v label w} (h : Intact codec v)
    (step : Step codec runId v label w) : Intact codec w := by
  cases step with
  | @create run event absent key state version owner sequenceNo previous next =>
      obtain rfl := h.absent absent
      exact ⟨nofun, nofun, fun _ _ _ _ _ found => nomatch found⟩
  | @move run m stage reason now eventId row key state edge room permitted =>
      refine ⟨nofun, fun kind found written => ?_, fun run' row' kind later found written => ?_⟩
      · rcases m.record_artifacts written with ⟨artifact, -, rfl⟩ | kept
        · rfl
        · exact h.encoded kind found kept
      · obtain rfl := Option.some.inj row'
        rcases m.record_artifacts written with ⟨artifact, made, rfl⟩ | kept
        · exact Move.writes_owned permitted made later
        · exact h.owned run row kind later found kept
  | @attempt run ordinal row present state absent synthesized =>
      exact ⟨fun none => (nomatch present.symm.trans none), h.encoded, h.owned⟩
  | @handOff run present state =>
      exact ⟨fun none => (nomatch present.symm.trans none), h.encoded, h.owned⟩

theorem Reachable.intact {codec s} (h : Reachable codec s) (runId : String) :
    Intact codec (s.rowsOf runId) :=
  h.rows_invariant (Intact.start codec) fun _ _ _ intact step => intact.step step

theorem Reachable.getArtifact_succeeds {codec s} (h : Reachable codec s) {runId run}
    (found : getPipelineRun s runId = some run) {kind : ArtifactKind} (later : kind ≠ .parsed)
    (held : (s.rowsOf runId).artifacts kind ≠ none) :
    ∃ artifact, requireArtifact codec kind s runId = .ok artifact := by
  obtain ⟨row, stored⟩ := Option.ne_none_iff_exists'.mp held
  have encoded := (h.intact runId).encoded kind row stored
  have owned := (h.intact runId).owned run found kind later row stored
  refine ⟨row.artifact, ?_⟩
  have looked : (s.artifacts kind).lookup runId = some row := stored
  have hash : row.artifactHash = codec.artifactHash kind row.artifact :=
    congrArg ArtifactRow.artifactHash encoded
  have document : row.documentId = kind.documentId row.artifact :=
    congrArg ArtifactRow.documentId encoded
  have version : row.version = kind.version row.artifact :=
    congrArg ArtifactRow.version encoded
  simp only [requireArtifact, getArtifact, looked, found, peel_ok, refuseIf_eq_ok, return_ok,
    okOrElse_eq_ok, exists_const]
  exact ⟨_, ⟨not_not.mpr hash.symm, by simp [document, version, owned], rfl⟩, rfl⟩

/-! ## Attempts -/

/-- The one synthesis attempt is recorded with its artifact, and a verification attempt
only beside it. -/
structure AttemptsFollow (v : RunRows) : Prop where
  absent : v.row = none → v = .absent
  first : ∀ ordinal, v.synthesisAttempts ordinal ≠ none → ordinal = 0
  synthesized : v.synthesisAttempts 0 ≠ none ↔ v.artifacts .synthesized ≠ none
  verified : ∀ ordinal, v.verificationAttempts ordinal ≠ none →
    v.synthesisAttempts ordinal ≠ none

theorem AttemptsFollow.start : AttemptsFollow .absent where
  absent _ := rfl
  first _ found := absurd rfl found
  synthesized := Iff.rfl
  verified _ found := absurd rfl found

theorem AttemptsFollow.record_verification {ordinal row} (h : AttemptsFollow v)
    (synthesized : v.synthesisAttempts ordinal ≠ none) (n : Nat)
    (found : (v.recordVerificationAttempt ordinal row).verificationAttempts n ≠ none) :
    v.synthesisAttempts n ≠ none := by
  by_cases same : n = ordinal
  · subst same
    exact synthesized
  · simp only [RunRows.recordVerificationAttempt, Function.update_of_ne same] at found
    exact h.verified n found

/-- A completed synthesis is attempt `0`. -/
theorem AttemptsFollow.record_synthesis {synthesis attempt} (h : AttemptsFollow v)
    (row : v.row ≠ none) :
    AttemptsFollow ((v.recordArtifact .synthesized synthesis).recordSynthesisAttempt 0 attempt) where
  absent none := absurd none row
  first n found := by
    by_contra other
    simp only [RunRows.recordSynthesisAttempt, RunRows.recordArtifact,
      Function.update_of_ne other] at found
    exact other (h.first n found)
  synthesized := by
    simp [RunRows.recordSynthesisAttempt, RunRows.recordArtifact]
  verified n found := by
    have there := h.verified n found
    obtain rfl := h.first n there
    simp [RunRows.recordSynthesisAttempt]

theorem AttemptsFollow.record_other {kind} (row : ArtifactRow kind)
    (h : AttemptsFollow v) (present : v.row ≠ none) (other : kind ≠ .synthesized) :
    AttemptsFollow (v.recordArtifact kind row) where
  absent none := absurd none present
  first := h.first
  synthesized := by
    simp only [RunRows.recordArtifact, Function.update_of_ne (Ne.symm other)]
    exact h.synthesized
  verified := h.verified

theorem AttemptsFollow.record (codec : Codec) {run : PipelineRun} {m : Move}
    (h : AttemptsFollow v) (present : v.row ≠ none) (permitted : m.Permitted v run) :
    AttemptsFollow (m.record codec v) := by
  cases m with
  | complete kind artifact warnings =>
      cases kind with
      | synthesized => exact h.record_synthesis present
      | verified =>
          have beside : v.synthesisAttempts artifact.synthesisAttemptOrdinal ≠ none :=
            permitted.2.2.2.2
          have recorded : AttemptsFollow (v.recordVerificationAttempt
              artifact.synthesisAttemptOrdinal (.of codec .verified artifact)) :=
            ⟨fun none => absurd none present, h.first, h.synthesized,
              h.record_verification beside⟩
          exact recorded.record_other _ present (by decide)
      | parsed | normalized | structured | chunked | analyzed | summary | citation =>
          exact h.record_other _ present (by decide)
  | finish summary citations =>
      have once := h.record_other (ArtifactRow.of codec .summary summary) present (by decide)
      exact once.record_other _ present (by decide)
  | start | ingest | rewind | fail | requestCancellation | completeCancellation => exact h

theorem AttemptsFollow.step {codec runId v label w} (h : AttemptsFollow v)
    (step : Step codec runId v label w) : AttemptsFollow w := by
  cases step with
  | @create run event absent key state version owner sequenceNo previous next =>
      obtain rfl := h.absent absent
      exact ⟨nofun, h.first, h.synthesized, h.verified⟩
  | @move run m stage reason now eventId row key state edge room permitted =>
      have present : v.row ≠ none := fun none => nomatch row.symm.trans none
      have recorded := h.record codec present permitted
      exact ⟨nofun, recorded.first, recorded.synthesized, recorded.verified⟩
  | @attempt run ordinal row present state absent synthesized =>
      exact ⟨fun none => (nomatch present.symm.trans none), h.first, h.synthesized,
        h.record_verification synthesized⟩
  | @handOff run present state =>
      exact ⟨fun none => (nomatch present.symm.trans none), h.first, h.synthesized, h.verified⟩

theorem Reachable.attemptsFollow {codec s} (h : Reachable codec s) (runId : String) :
    AttemptsFollow (s.rowsOf runId) :=
  h.rows_invariant AttemptsFollow.start fun _ _ _ follow step => follow.step step

/-! ## Roots that OCR owns -/

/-- A run handed to OCR does not process further. -/
structure HandedOffRests (v : RunRows) : Prop where
  absent : v.row = none → v = .absent
  rests : ∀ run, v.row = some run → v.handedOff = true →
    run.state = .parsed ∨ run.state = .failed ∨ run.state = .cancelling ∨ run.state = .cancelled

theorem HandedOffRests.start : HandedOffRests .absent where
  absent _ := rfl
  rests _ row := nomatch row

theorem Move.record_handedOff (codec : Codec) (m : Move) (v : RunRows) :
    (m.record codec v).handedOff = v.handedOff := by
  cases m with
  | complete kind artifact warnings => cases kind <;> rfl
  | start | ingest | rewind | finish | fail | requestCancellation | completeCancellation => rfl

theorem HandedOffRests.step {codec runId v label w} (h : HandedOffRests v)
    (step : Step codec runId v label w) : HandedOffRests w := by
  cases step with
  | @create run event absent key state version owner sequenceNo previous next =>
      obtain rfl := h.absent absent
      exact ⟨nofun, fun _ _ handedOff => nomatch handedOff⟩
  | @move run m stage reason now eventId row key state edge room permitted =>
      refine ⟨nofun, fun run' row' handedOff => ?_⟩
      obtain rfl := Option.some.inj row'
      have before : v.handedOff = true := (m.record_handedOff codec v).symm.trans handedOff
      show m.target = _ ∨ m.target = _ ∨ m.target = _ ∨ m.target = _
      have resting := h.rests run row before
      rw [state] at resting
      cases m with
      | start stage =>
          cases stage with
          | normalize => exact absurd ((permitted rfl).symm.trans before) Bool.false_ne_true
          | _ =>
              rcases resting with at_ | at_ | at_ | at_ <;> cases at_
      | complete kind =>
          cases kind <;> rcases resting with at_ | at_ | at_ | at_ <;> cases at_
      | rewind stage =>
          cases stage <;> rcases resting with at_ | at_ | at_ | at_ <;> cases at_
      | ingest | finish =>
          rcases resting with at_ | at_ | at_ | at_ <;> cases at_
      | fail => exact .inr (.inl rfl)
      | requestCancellation => exact .inr (.inr (.inl rfl))
      | completeCancellation => exact .inr (.inr (.inr rfl))
  | @attempt run ordinal row present state absent synthesized =>
      exact ⟨fun none => (nomatch present.symm.trans none), h.rests⟩
  | @handOff run present state =>
      refine ⟨fun none => (nomatch present.symm.trans none), fun run' row' _ => ?_⟩
      obtain rfl := Option.some.inj (present.symm.trans row')
      exact .inl state

theorem Reachable.handedOffRests {codec s} (h : Reachable codec s) (runId : String) :
    HandedOffRests (s.rowsOf runId) :=
  h.rows_invariant HandedOffRests.start fun _ _ _ rests step => rests.step step

end DocumentSummarizer.Pipeline
