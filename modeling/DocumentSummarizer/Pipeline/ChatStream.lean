import DocumentSummarizer.Library.Fallible
import DocumentSummarizer.Library.Utf8Text
import DocumentSummarizer.Pipeline.GatewayWire

/-! # Chat streams

The local model answers a chat with lines of JSON, one frame each. A stream is
taken when its frames come in order and, where a digest is required, the loaded
model was verified once it had begun to answer.
-/

namespace DocumentSummarizer.Pipeline.Chat

open Library Gateway

def maxModelResponseBytes : Nat := 4 * 1024 * 1024

structure ModelTokenUsage where
  promptTokens : Option Nat
  completionTokens : Option Nat
  totalTokens : Option Nat
  deriving DecidableEq

/-- The usage of two counts; their sum is a saturating one. -/
def tokenUsage (prompt completion : Option Nat) : ModelTokenUsage where
  promptTokens := prompt
  completionTokens := completion
  totalTokens := prompt.bind fun a => completion.map fun b => min (a + b) (2 ^ 64 - 1)

inductive ModelTransportAttempt where
  | primary
  | schemaFallbackRetry
  | cachedSchemaFallback
  deriving DecidableEq

structure ModelRequestAttemptDiagnostic where
  stage : PipelineStage
  requestOrdinal : Nat
  attemptOrdinal : Nat
  transportAttempt : ModelTransportAttempt
  elapsedMilliseconds : Nat
  configuredOutputTokens : Nat
  providerUsage : ModelTokenUsage
  succeeded : Bool

structure ModelRuntimeFailure where
  code : String
  message : String
  recoverable : Bool
  requestAttempts : List ModelRequestAttemptDiagnostic

def runtimeFailure (code message : String) (recoverable : Bool) : ModelRuntimeFailure :=
  ⟨code, message, recoverable, []⟩

def invalidStreamResponse : ModelRuntimeFailure :=
  runtimeFailure "MODEL_RESPONSE_INVALID" "Local model returned an invalid streamed response" true

def unreadResponse : ModelRuntimeFailure :=
  runtimeFailure "MODEL_RESPONSE_INVALID" "Local model response could not be read" true

def responseTooLarge : ModelRuntimeFailure :=
  runtimeFailure "MODEL_RESPONSE_TOO_LARGE"
    "Local model response exceeds the supported size limit" true

def failedGeneration : ModelRuntimeFailure :=
  runtimeFailure "MODEL_RUNTIME_REJECTED" "Local model failed during streamed generation" true

def changedIdentity : ModelRuntimeFailure :=
  runtimeFailure "MODEL_EXECUTION_UNVERIFIED"
    "Local model stream changed its execution identity" true

def unprovenExecution : ModelRuntimeFailure :=
  runtimeFailure "MODEL_EXECUTION_UNVERIFIED"
    "Local model execution was not proven before completion" true

/-- The fields are those of the line, `message` the content of the message in it. -/
structure ChatStreamFrame where
  model : Option String
  message : Option String
  done : Option Bool
  doneReason : Option String
  promptEvalCount : Option Nat
  evalCount : Option Nat
  error : Option Json

/-- What the stream reader has of its runtime. Each check of the loaded model's digest has an
outcome of its own. -/
structure StreamReader where
  modelId : String
  expectedDigest : Option String
  decodeFrame : List UInt8 → Option ChatStreamFrame
  verifyExecutionDigest : Nat → Except ModelRuntimeFailure Unit

/-- The bytes that arrive, and whether the connection breaks behind them. -/
structure ResponseBody where
  bytes : List UInt8
  broken : Bool

/-- `frames` counts the frames taken, `checks` keeps how many there were at each check of the
digest. -/
structure ReadState where
  rawBytes : Nat
  content : String
  finalUsage : ModelTokenUsage
  executionProven : Bool
  sawNonFinal : Bool
  sawFinal : Bool
  finalReason : Option String
  frames : Nat
  checks : List Nat

def ReadState.start (reader : StreamReader) : ReadState where
  rawBytes := 0
  content := ""
  finalUsage := ⟨none, none, none⟩
  executionProven := reader.expectedDigest.isNone
  sawNonFinal := false
  sawFinal := false
  finalReason := none
  frames := 0
  checks := []

def newline : UInt8 := 10
def carriageReturn : UInt8 := 13

/-- The line without the line ends behind it. -/
def stripLine (line : List UInt8) : List UInt8 :=
  line.rdropWhile fun byte => byte == newline || byte == carriageReturn

/-- One pass of the loop, for a line that is not empty. -/
def readLine (reader : StreamReader) (state : ReadState) (line : List UInt8) :
    Except ModelRuntimeFailure ReadState := do
  refuseIf (maxModelResponseBytes < state.rawBytes + line.length) responseTooLarge
  refuseIf (stripLine line = []) invalidStreamResponse
  let frame ← okOrElse (reader.decodeFrame (stripLine line)) invalidStreamResponse
  refuseIf (frame.error.isSome = true) failedGeneration
  refuseIf (state.sawFinal = true) invalidStreamResponse
  let model ← okOrElse frame.model invalidStreamResponse
  let done ← okOrElse frame.done invalidStreamResponse
  let message ← okOrElse frame.message invalidStreamResponse
  refuseIf (model ≠ reader.modelId) changedIdentity
  let read := { state with
    rawBytes := state.rawBytes + line.length
    content := state.content ++ message
    frames := state.frames + 1 }
  if done then
    refuseIf (state.sawNonFinal = false ∨ state.executionProven = false) unprovenExecution
    return { read with
      sawFinal := true
      finalReason := frame.doneReason
      finalUsage := tokenUsage frame.promptEvalCount frame.evalCount }
  else if state.executionProven then return { read with sawNonFinal := true }
  else do
    reader.verifyExecutionDigest state.checks.length
    return { read with
      sawNonFinal := true
      executionProven := true
      checks := state.checks ++ [read.frames] }

/-- The lines that are read: a break is noticed at the first line it cuts. -/
def deliveredLines (body : ResponseBody) : List (List UInt8) × Bool :=
  let lines := splitInclusive newline (body.bytes.take (maxModelResponseBytes + 1))
  if body.broken ∧ body.bytes.length ≤ maxModelResponseBytes then
    (lines.filter fun line => line.getLast? == some newline, true)
  else (lines, false)

/-- What is made of a stream; `checks` is not part of the body that is passed on. -/
structure ChatOutput where
  content : String
  doneReason : Option String
  usage : ModelTokenUsage
  checks : List Nat

def readVerifiedChatStream (reader : StreamReader) (body : ResponseBody) :
    Except ModelRuntimeFailure ChatOutput := do
  let delivered := deliveredLines body
  let state ← delivered.1.foldlM (readLine reader) (.start reader)
  refuseIf (delivered.2 = true) unreadResponse
  refuseIf (state.sawFinal = false) invalidStreamResponse
  return ⟨state.content, state.finalReason, state.finalUsage, state.checks⟩

/-! ## Frames -/

/-- A frame of the expected model without an error. -/
structure Frame where
  content : String
  done : Bool
  doneReason : Option String
  promptEvalCount : Option Nat
  evalCount : Option Nat

def Frame.usage (frame : Frame) : ModelTokenUsage :=
  tokenUsage frame.promptEvalCount frame.evalCount

/-- A line is a chat frame of the expected model that carries no error. -/
def FrameOf (reader : StreamReader) (line : List UInt8) (frame : Frame) : Prop :=
  stripLine line ≠ [] ∧ reader.decodeFrame (stripLine line) = some {
    model := some reader.modelId
    message := some frame.content
    done := some frame.done
    doneReason := frame.doneReason
    promptEvalCount := frame.promptEvalCount
    evalCount := frame.evalCount
    error := none }

section Lines

variable {reader : StreamReader} {state state' : ReadState} {line : List UInt8}

/-- The state behind a frame that is not the last. -/
def ReadState.extended (state : ReadState) (line : List UInt8) (frame : Frame) : ReadState :=
  { state with
    rawBytes := state.rawBytes + line.length
    content := state.content ++ frame.content
    frames := state.frames + 1
    sawNonFinal := true
    executionProven := true
    checks := if state.executionProven then state.checks
      else state.checks ++ [state.frames + 1] }

/-- The state behind the last frame. -/
def ReadState.finished (state : ReadState) (line : List UInt8) (frame : Frame) : ReadState :=
  { state with
    rawBytes := state.rawBytes + line.length
    content := state.content ++ frame.content
    frames := state.frames + 1
    sawFinal := true
    finalReason := frame.doneReason
    finalUsage := frame.usage }

/-- What one line can do. -/
theorem readLine_eq_ok : readLine reader state line = .ok state' ↔
    ∃ frame, FrameOf reader line frame ∧
      state.rawBytes + line.length ≤ maxModelResponseBytes ∧ state.sawFinal = false ∧
      ((frame.done = true ∧ state.sawNonFinal = true ∧ state.executionProven = true ∧
          state' = state.finished line frame) ∨
        (frame.done = false ∧ (state.executionProven = false →
            reader.verifyExecutionDigest state.checks.length = .ok ()) ∧
          state' = state.extended line frame)) := by
  constructor
  · intro read
    simp only [readLine, peel_ok, refuseIf_eq_ok, okOrElse_eq_ok] at read
    obtain ⟨-, fits, -, visible, ⟨model, message, done, doneReason, prompt, count, error⟩, decoded,
      -, clean, -, unfinished, model', named, done', marked, message', shown, -, same,
      taken⟩ := read
    obtain rfl : error = none := by simpa using clean
    obtain rfl : model = some model' := named
    obtain rfl : done = some done' := marked
    obtain rfl : message = some message' := shown
    obtain rfl : model' = reader.modelId := not_not.mp same
    refine ⟨⟨message', done', doneReason, prompt, count⟩, ⟨visible, decoded⟩, not_lt.mp fits,
      by simpa using unfinished, ?_⟩
    cases done' with
    | true =>
        simp only [if_true, peel_ok, refuseIf_eq_ok, return_ok, not_or, Bool.not_eq_false] at taken
        obtain ⟨-, ⟨answered, proven⟩, rfl⟩ := taken
        exact .inl ⟨rfl, answered, proven, rfl⟩
    | false =>
        refine .inr ⟨rfl, ?_⟩
        cases proven : state.executionProven with
        | true =>
            simp only [proven, if_true, Bool.false_eq_true, if_false, return_ok] at taken
            refine ⟨by simp, ?_⟩
            rw [← taken]
            simp [ReadState.extended, proven]
        | false =>
            simp only [proven, Bool.false_eq_true, if_false, peel_ok, return_ok] at taken
            obtain ⟨⟨⟩, verified, rfl⟩ := taken
            refine ⟨fun _ => verified, ?_⟩
            simp [ReadState.extended, proven]
  · rintro ⟨frame, ⟨visible, decoded⟩, fits, unfinished, last | next⟩
    · obtain ⟨done, answered, proven, rfl⟩ := last
      simp only [readLine, peel_ok, refuseIf_eq_ok, okOrElse_eq_ok]
      refine ⟨⟨⟩, not_lt.mpr fits, ⟨⟩, visible, _, decoded, ⟨⟩, by simp, ⟨⟩, by simp [unfinished],
        _, rfl, _, rfl, _, rfl, ⟨⟩, by simp, ?_⟩
      rw [if_pos done, peel_ok]
      exact ⟨⟨⟩, by simp [answered, proven], rfl⟩
    · obtain ⟨more, verified, rfl⟩ := next
      simp only [readLine, peel_ok, refuseIf_eq_ok, okOrElse_eq_ok]
      refine ⟨⟨⟩, not_lt.mpr fits, ⟨⟩, visible, _, decoded, ⟨⟩, by simp, ⟨⟩, by simp [unfinished],
        _, rfl, _, rfl, _, rfl, ⟨⟩, by simp, ?_⟩
      rw [if_neg (by simp [more])]
      cases proven : state.executionProven with
      | true =>
          simp only [ReadState.extended, proven, if_true]
          rfl
      | false =>
          rw [if_neg (by simp), ok_bind (verified proven)]
          simp only [ReadState.extended, proven, Bool.false_eq_true, if_false]
          rfl

end Lines

/-! ## Streams -/

/-- The contents of frames, in order. -/
def contents : List Frame → String
  | [] => ""
  | frame :: rest => frame.content ++ contents rest

section Streams

variable {reader : StreamReader} {state state' : ReadState} {lines : List (List UInt8)}

theorem foldlM_cons_ok {line : List UInt8} :
    (line :: lines).foldlM (readLine reader) state = .ok state' ↔
      ∃ next, readLine reader state line = .ok next ∧
        lines.foldlM (readLine reader) next = .ok state' := by
  rw [List.foldlM_cons, peel_ok]

/-- Nothing is taken behind the last frame. -/
theorem lines_of_finished (finished : state.sawFinal = true)
    (read : lines.foldlM (readLine reader) state = .ok state') : lines = [] ∧ state' = state := by
  cases lines with
  | nil =>
      rw [List.foldlM_nil, return_ok] at read
      exact ⟨rfl, read.symm⟩
  | cons line rest =>
      obtain ⟨next, first, -⟩ := foldlM_cons_ok.mp read
      obtain ⟨-, -, -, open', -⟩ := readLine_eq_ok.mp first
      rw [finished] at open'
      cases open'

/-- The lines behind the first frame: frames of which only the last one is final. -/
theorem lines_eq_ok (unfinished : state.sawFinal = false) (answered : state.sawNonFinal = true)
    (proven : state.executionProven = true) :
    (lines.foldlM (readLine reader) state = .ok state' ∧ state'.sawFinal = true) ↔
      ∃ front last, List.Forall₂ (FrameOf reader) lines (front ++ [last]) ∧
        (∀ frame ∈ front, frame.done = false) ∧ last.done = true ∧
        state.rawBytes + lines.flatten.length ≤ maxModelResponseBytes ∧
        state' = { state with
          rawBytes := state.rawBytes + lines.flatten.length
          content := state.content ++ contents (front ++ [last])
          frames := state.frames + lines.length
          sawFinal := true
          finalReason := last.doneReason
          finalUsage := last.usage } := by
  induction lines generalizing state with
  | nil =>
      constructor
      · rintro ⟨read, finished⟩
        rw [List.foldlM_nil, return_ok] at read
        rw [← read, unfinished] at finished
        cases finished
      · rintro ⟨front, last, matched, -⟩
        have long := matched.length_eq
        simp at long
  | cons line rest ih =>
      rw [foldlM_cons_ok]
      constructor
      · rintro ⟨⟨next, first, read⟩, finished⟩
        obtain ⟨frame, framed, fits, -, last | more⟩ := readLine_eq_ok.mp first
        · obtain ⟨done, -, -, rfl⟩ := last
          obtain ⟨rfl, rfl⟩ := lines_of_finished rfl read
          refine ⟨[], frame, .cons framed .nil, by simp, done, by simpa using fits, ?_⟩
          simp [ReadState.finished, contents]
        · obtain ⟨more, -, rfl⟩ := more
          have later := (@ih (state.extended line frame) unfinished rfl rfl).mp
            ⟨read, finished⟩
          obtain ⟨front, last, matched, before, done, fits, rfl⟩ := later
          refine ⟨frame :: front, last, .cons framed matched,
            List.forall_mem_cons.mpr ⟨more, before⟩, done, ?_, ?_⟩
          · simp only [ReadState.extended, List.flatten_cons, List.length_append] at fits ⊢
            omega
          · simp [ReadState.extended, contents, proven, answered, String.append_assoc,
              Nat.add_assoc, Nat.add_comm 1]
      · rintro ⟨front, last, matched, before, done, fits, rfl⟩
        rw [List.flatten_cons, List.length_append] at fits
        cases front with
        | nil =>
            cases matched with
            | cons framed matched =>
                cases matched
                refine ⟨⟨_, readLine_eq_ok.mpr ⟨last, framed, by simpa using fits, unfinished,
                  .inl ⟨done, answered, proven, rfl⟩⟩, ?_⟩, rfl⟩
                rw [List.foldlM_nil, return_ok]
                simp [ReadState.finished, contents]
        | cons frame front =>
            obtain ⟨more, before⟩ := List.forall_mem_cons.mp before
            cases matched with
            | cons framed matched =>
                have first := readLine_eq_ok.mpr ⟨frame, framed, by omega, unfinished,
                  .inr ⟨more, by simp [proven], rfl⟩⟩
                have later := (@ih (state.extended line frame) unfinished rfl rfl).mpr
                  ⟨front, last, matched, before, done, by
                    simp only [ReadState.extended]
                    omega, by
                    simp [ReadState.extended, contents, proven, answered, String.append_assoc,
                      Nat.add_assoc, Nat.add_comm 1]⟩
                exact ⟨⟨_, first, later.1⟩, rfl⟩

theorem bytes_of_lines (bytes : List UInt8) :
    (splitInclusive newline bytes).flatten.length = bytes.length := by
  rw [flatten_splitInclusive]

/-- A whole stream: one or more frames that are not final, and a final one. -/
structure StreamOf (reader : StreamReader) (body : ResponseBody) (front : List Frame)
    (last : Frame) : Prop where
  framed : List.Forall₂ (FrameOf reader) (splitInclusive newline body.bytes) (front ++ [last])
  answered : front ≠ []
  before : ∀ frame ∈ front, frame.done = false
  done : last.done = true
  unbroken : body.broken = false
  fits : body.bytes.length ≤ maxModelResponseBytes
  verified : reader.expectedDigest.isSome = true → reader.verifyExecutionDigest 0 = .ok ()

/-- What a whole stream is read as: the digest was checked once, behind the first frame. -/
def outputOf (reader : StreamReader) (front : List Frame) (last : Frame) : ChatOutput where
  content := contents (front ++ [last])
  doneReason := last.doneReason
  usage := last.usage
  checks := if reader.expectedDigest.isSome then [1] else []

theorem lines_of_start :
    (lines.foldlM (readLine reader) (.start reader) = .ok state' ∧ state'.sawFinal = true) ↔
      ∃ front last, List.Forall₂ (FrameOf reader) lines (front ++ [last]) ∧ front ≠ [] ∧
        (∀ frame ∈ front, frame.done = false) ∧ last.done = true ∧
        lines.flatten.length ≤ maxModelResponseBytes ∧
        (reader.expectedDigest.isSome = true → reader.verifyExecutionDigest 0 = .ok ()) ∧
        state' = {
          rawBytes := lines.flatten.length
          content := contents (front ++ [last])
          finalUsage := last.usage
          executionProven := true
          sawNonFinal := true
          sawFinal := true
          finalReason := last.doneReason
          frames := lines.length
          checks := if reader.expectedDigest.isSome then [1] else [] } := by
  cases lines with
  | nil =>
      constructor
      · rintro ⟨read, finished⟩
        rw [List.foldlM_nil, return_ok] at read
        rw [← read] at finished
        cases finished
      · rintro ⟨front, last, matched, -⟩
        have long := matched.length_eq
        simp at long
  | cons line rest =>
      rw [foldlM_cons_ok]
      have required : ((ReadState.start reader).executionProven = false →
          reader.verifyExecutionDigest (ReadState.start reader).checks.length = .ok ()) ↔
          (reader.expectedDigest.isSome = true → reader.verifyExecutionDigest 0 = .ok ()) := by
        cases digest : reader.expectedDigest <;> simp [ReadState.start, digest]
      have checks (frame : Frame) : ((ReadState.start reader).extended line frame).checks =
          if reader.expectedDigest.isSome then [1] else [] := by
        cases digest : reader.expectedDigest <;> simp [ReadState.start, ReadState.extended, digest]
      constructor
      · rintro ⟨⟨next, first, read⟩, finished⟩
        obtain ⟨frame, framed, fits, -, last | more⟩ := readLine_eq_ok.mp first
        · cases last.2.1
        · obtain ⟨more, verified, rfl⟩ := more
          obtain ⟨front, last, matched, before, done, fits, rfl⟩ :=
            (lines_eq_ok rfl rfl rfl).mp ⟨read, finished⟩
          refine ⟨frame :: front, last, .cons framed matched, by simp,
            List.forall_mem_cons.mpr ⟨more, before⟩, done, ?_, required.mp verified, ?_⟩
          · simp only [ReadState.extended, ReadState.start, List.flatten_cons,
              List.length_append] at fits ⊢
            omega
          · rw [checks]
            simp [ReadState.extended, ReadState.start, contents, Nat.add_comm 1]
      · rintro ⟨front, last, matched, answered, before, done, fits, verified, same⟩
        rw [List.flatten_cons, List.length_append] at fits
        cases front with
        | nil => exact absurd rfl answered
        | cons frame front =>
            obtain ⟨more, before⟩ := List.forall_mem_cons.mp before
            cases matched with
            | cons framed matched =>
                have small : (ReadState.start reader).rawBytes + line.length ≤
                    maxModelResponseBytes := by
                  simp only [ReadState.start]
                  omega
                have first := readLine_eq_ok.mpr ⟨frame, framed, small, rfl,
                  .inr ⟨more, required.mpr verified, rfl⟩⟩
                have later := (@lines_eq_ok reader ((ReadState.start reader).extended line frame)
                  state' rest rfl rfl rfl).mpr ⟨front, last, matched, before, done, by
                    simp only [ReadState.extended, ReadState.start]
                    omega, by
                    rw [checks, same]
                    simp [ReadState.extended, ReadState.start, contents, Nat.add_comm 1]⟩
                exact ⟨⟨_, first, later.1⟩, later.2⟩

theorem deliveredLines_whole {body : ResponseBody} (whole : (deliveredLines body).2 = false) :
    (deliveredLines body).1 =
      splitInclusive newline (body.bytes.take (maxModelResponseBytes + 1)) ∧
      (body.broken = true → maxModelResponseBytes < body.bytes.length) := by
  unfold deliveredLines at whole ⊢
  split at whole
  · cases whole
  · next intact =>
      rw [if_neg intact]
      exact ⟨rfl, fun broken => not_le.mp fun short => intact ⟨broken, short⟩⟩

theorem deliveredLines_short {body : ResponseBody} (unbroken : body.broken = false)
    (fits : body.bytes.length ≤ maxModelResponseBytes) :
    deliveredLines body = (splitInclusive newline body.bytes, false) := by
  unfold deliveredLines
  rw [if_neg (by simp [unbroken]), List.take_of_length_le (by omega)]

/-- A stream is taken just when it is a whole one, and as the contents of its frames. -/
theorem readVerifiedChatStream_eq_ok {body : ResponseBody} {output : ChatOutput} :
    readVerifiedChatStream reader body = .ok output ↔
      ∃ front last, StreamOf reader body front last ∧ output = outputOf reader front last := by
  constructor
  · intro read
    simp only [readVerifiedChatStream, peel_ok, refuseIf_eq_ok, return_ok,
      Bool.not_eq_true, Bool.not_eq_false] at read
    obtain ⟨state, taken, -, whole, -, finished, rfl⟩ := read
    obtain ⟨lines, broken⟩ := deliveredLines_whole whole
    rw [lines] at taken
    obtain ⟨front, last, framed, answered, before, done, short, verified, rfl⟩ :=
      lines_of_start.mp ⟨taken, finished⟩
    rw [bytes_of_lines, List.length_take] at short
    have fits : body.bytes.length ≤ maxModelResponseBytes := by omega
    rw [List.take_of_length_le (by omega)] at framed
    have unbroken : body.broken = false := by
      cases cut : body.broken with
      | true => exact absurd (broken cut) (not_lt.mpr fits)
      | false => rfl
    exact ⟨front, last, ⟨framed, answered, before, done, unbroken, fits, verified⟩, rfl⟩
  · rintro ⟨front, last, whole, rfl⟩
    have taken := (@lines_of_start reader _ _).mpr ⟨front, last, whole.framed,
      whole.answered, whole.before, whole.done, by rw [bytes_of_lines]; exact whole.fits,
      whole.verified, rfl⟩
    simp only [readVerifiedChatStream, deliveredLines_short whole.unbroken whole.fits, peel_ok,
      refuseIf_eq_ok, return_ok]
    exact ⟨_, taken.1, ⟨⟩, by simp, ⟨⟩, by simp, rfl⟩

end Streams

end DocumentSummarizer.Pipeline.Chat
