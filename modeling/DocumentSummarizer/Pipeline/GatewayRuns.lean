import DocumentSummarizer.Pipeline.GatewaySafety

/-! # Calls of the gateway client side by side

What holds of every interleaving of calls, a call for a key that belongs to
other input, and a call for a request that was completed before it expired.
-/

namespace DocumentSummarizer.Pipeline.Gateway

open Library

section Calls

variable {platform : GatewayPlatform} {key : GatewayRequestKey}
  {given kept : Process.Event Exchange Answer → Prop}

/-! ## A key that belongs to other input -/

/-- The row of the key was reserved for another core. -/
def Foreign (platform : GatewayPlatform) (key : GatewayRequestKey) (core : RequestCore)
    (s : Exchange) : Prop :=
  ∃ row other, s.ledger key = some row ∧
    row.semanticRequestHash = semanticHash platform other ∧
    platform.encodeCore other ≠ platform.encodeCore core

theorem Foreign.hash {core : RequestCore} {s : Exchange} (h : Foreign platform key core s)
    (injective : Function.Injective platform.sha256Hex) :
    ∃ row, s.ledger key = some row ∧ row.semanticRequestHash ≠ semanticHash platform core := by
  obtain ⟨row, other, present, own, different⟩ := h
  refine ⟨row, present, ?_⟩
  rw [own]
  exact fun same => different (injective same)

theorem Foreign.later {core : RequestCore} {s t : Exchange} (h : Foreign platform key core s)
    (later : RowLater (s.ledger key) (t.ledger key)) : Foreign platform key core t := by
  obtain ⟨row, other, present, own, different⟩ := h
  rw [present] at later
  obtain ⟨row', present', keeps⟩ := keeps_of_later later
  exact ⟨row', other, present', keeps.semanticRequestHash.trans own, different⟩

theorem reserveRequest_taken {hash : String} {lifetime : Instant} {answer : Answer}
    {row record : GatewayRequestRecord}
    (h : reserveRequest platform key hash lifetime answer (some row) = .ok record) :
    record = row ∧ row.semanticRequestHash = hash := by
  have own := (reserveRequest_commits h).2
  unfold reserveRequest at h
  obtain ⟨expiresAt, -, h⟩ := peel_ok.mp h
  obtain ⟨found, parsed, h⟩ := peel_ok.mp h
  have same : found = row := parseRecord_ok parsed
  split at h
  · cases h
  · cases h
    exact ⟨same, same ▸ own⟩

section Foreign

variable {core : RequestCore}

/-- The steps that find the key taken by other input, and leave everything alone. -/
abbrev Untouched (platform : GatewayPlatform) (key : GatewayRequestKey) (core : RequestCore)
    {α : Type} (p : Call α) (post : Except GatewayClientError α → Prop) : Prop :=
  Process.Along (fun event => Foreign platform key core event.found)
    (fun event => event.left = event.found) p post

theorem untouched_matchingTerminal {error : GatewayStoreError}
    (injective : Function.Injective platform.sha256Hex) :
    Untouched platform key core
      (matchingTerminal platform key (semanticHash platform core) error)
      fun outcome => ∃ e, outcome = .error e := by
  have loads : Untouched platform key core (loadRequest platform key) fun outcome =>
      ∀ record, outcome = .ok record →
        record.semanticRequestHash ≠ semanticHash platform core := by
    apply Process.along_atomic
    intro i s foreign
    obtain ⟨row, present, different⟩ := foreign.hash injective
    cases i.fault with
    | some fault => exact ⟨rfl, fun _ same => by cases same⟩
    | none =>
        cases found : loadRequired platform (s.ledger key) with
        | error e => exact ⟨rfl, fun _ same => by cases same⟩
        | ok record =>
            refine ⟨rfl, ?_⟩
            intro other same
            cases same
            have stored := (loadRequired_ok found).1
            rw [present, Option.some.injEq] at stored
            exact stored ▸ different
  apply loads.bind
  · intro record different
    rw [if_pos (.inl (different record rfl))]
    exact ⟨_, rfl⟩
  · exact fun e _ => ⟨e, rfl⟩

theorem untouched_reserve {lifetime : Instant}
    (injective : Function.Injective platform.sha256Hex) :
    Untouched platform key core
      (transact key fun answer row =>
        reserveRequest platform key (semanticHash platform core) lifetime answer row)
      fun outcome => ∃ error, outcome = .ok (.error error) := by
  apply Process.along_atomic
  intro i s foreign
  obtain ⟨row, present, different⟩ := foreign.hash injective
  cases ran : reserveRequest platform key (semanticHash platform core) lifetime i
      (s.ledger key) with
  | ok record =>
      rw [present] at ran
      exact absurd (reserveRequest_taken ran).2 different
  | error e =>
      simp only [ran]
      cases i.fault with
      | none => exact ⟨rfl, e, rfl⟩
      | some fault => exact ⟨rfl, fault.error, rfl⟩

/-- A call for other input is refused, and none of its steps changes anything. -/
theorem untouched_execute {lifetime : Instant} {request : ModelRequest} {now : Instant}
    (injective : Function.Injective platform.sha256Hex)
    (read : requestCore platform request = .ok core) :
    Untouched platform key core (execute platform key lifetime request now)
      fun outcome => ∃ e, outcome = .error e := by
  have refuses : ∀ error, Untouched platform key core (do
      let record ← orMatchingTerminal platform key (semanticHash platform core) (.error error)
      executeReserved platform key record core now) fun outcome => ∃ e, outcome = .error e := by
    intro error
    apply (untouched_matchingTerminal injective).bind
    · intro record refused
      obtain ⟨e, same⟩ := refused
      cases same
    · exact fun e _ => ⟨e, rfl⟩
  unfold execute
  apply Process.along_lift_bind
  · intro _ _
    rw [read]
    apply Process.along_lift_bind
    · intro found same
      cases same
      apply Process.along_lift_bind
      · intro _ _
        simp only
        cases validateReservationIdentity key (semanticHash platform core) with
        | error error => exact refuses error
        | ok stage =>
            apply (untouched_reserve injective).bind
            · intro outcome refused
              obtain ⟨error, same⟩ := refused
              cases same
              exact refuses error
            · exact fun e _ => ⟨e, rfl⟩
      · exact fun e _ => ⟨e, rfl⟩
    · exact fun e _ => ⟨e, rfl⟩
  · exact fun e _ => ⟨e, rfl⟩

end Foreign

/-! ## A completion after the expiry -/

/-- The record holds this completion of this request. -/
structure Holds (semanticRequestHash requestExpiresAt : String) (completion : GatewayCompletion)
    (record : GatewayRequestRecord) : Prop where
  completion : record.progress.completion = some completion
  semanticRequestHash : record.semanticRequestHash = semanticRequestHash
  requestExpiresAt : record.requestExpiresAt = requestExpiresAt

/-- The store answers, the clock is at or past the expiry, and the row holds the completion. -/
structure Late (platform : GatewayPlatform) (key : GatewayRequestKey)
    (semanticRequestHash requestExpiresAt : String) (completion : GatewayCompletion)
    (event : Process.Event Exchange Answer) : Prop where
  fault : event.answer.fault = none
  clock : ∃ expiresAt, platform.parseRfc3339 requestExpiresAt = some expiresAt ∧
    expiresAt ≤ event.answer.now
  row : ∃ row, event.found.ledger key = some row ∧
    Holds semanticRequestHash requestExpiresAt completion row ∧
    parseRecord platform row = .ok row

section Late

variable {hash expiry : String} {completion : GatewayCompletion}

abbrev Answers (platform : GatewayPlatform) (key : GatewayRequestKey) (hash expiry : String)
    (completion : GatewayCompletion) {α : Type} (p : Call α)
    (post : Except GatewayClientError α → Prop) : Prop :=
  Process.Along (Late platform key hash expiry completion) (fun _ => True) p post

variable {record : GatewayRequestRecord}

theorem Holds.result (h : Holds hash expiry completion record) :
    resultFromRecord record = .ok completion.result := by
  unfold resultFromRecord
  rw [h.completion]

theorem Holds.terminal (h : Holds hash expiry completion record) :
    record.progress.state = .completed ∨ record.progress.state = .acknowledged := by
  have stored := h.completion
  cases progress : record.progress with
  | reserved | submitted =>
      rw [progress] at stored
      cases stored
  | completed => exact .inl rfl
  | acknowledged => exact .inr rfl

theorem answers_clock
    (h : Holds hash expiry completion record) :
    Answers platform key hash expiry completion clock fun outcome =>
      ∃ now, outcome = .ok now ∧ requestExpired platform record now = .ok true := by
  apply Process.along_atomic
  intro i s late
  obtain ⟨expiresAt, parsed, past⟩ := late.clock
  refine ⟨trivial, i.now, rfl, ?_⟩
  unfold requestExpired
  rw [h.requestExpiresAt, parsed]
  exact congrArg Except.ok (decide_eq_true past)

theorem answers_loadRequest :
    Answers platform key hash expiry completion (loadRequest platform key) fun outcome =>
      ∃ record, outcome = .ok record ∧ Holds hash expiry completion record := by
  apply Process.along_atomic
  intro i s late
  obtain ⟨row, present, holds, readable⟩ := late.row
  have loaded : loadRequired platform (s.ledger key) = .ok row := by
    change s.ledger key = some row at present
    rw [present]
    exact readable
  simp only [show i.fault = none from late.fault, loaded]
  exact ⟨trivial, row, rfl, holds⟩

theorem answers_resolveLocalRecord {now : Instant}
    (h : Holds hash expiry completion record) :
    Answers platform key hash expiry completion (resolveLocalRecord platform key record now)
      fun outcome => outcome = .ok (some completion.result) := by
  unfold resolveLocalRecord
  rcases h.terminal with completed | acknowledged
  · simp only [completed, h.result]
    apply Process.along_lift_bind
    · intro result same
      cases same
      apply (answers_clock h).bind
      · intro now read
        obtain ⟨_, same, expired⟩ := read
        cases same
        simp only [expired]
        exact rfl
      · intro e read
        obtain ⟨_, same, _⟩ := read
        cases same
    · exact fun e same => by cases same
  · simp only [acknowledged, h.result]
    exact rfl

theorem answers_executeReserved {core : RequestCore}
    {now : Instant} (h : Holds hash expiry completion record) :
    Answers platform key hash expiry completion (executeReserved platform key record core now)
      fun outcome => outcome = .ok completion.result := by
  apply (answers_resolveLocalRecord h).bind
  · intro found same
    cases same
    exact rfl
  · intro e same
    cases same

theorem answers_orMatchingTerminal
    {outcome : Except GatewayStoreError GatewayRequestRecord}
    (h : ∀ record, outcome = .ok record → Holds hash expiry completion record) :
    Answers platform key hash expiry completion (orMatchingTerminal platform key hash outcome)
      fun outcome => ∃ record, outcome = .ok record ∧ Holds hash expiry completion record := by
  cases outcome with
  | ok record => exact ⟨record, rfl, h record rfl⟩
  | error error =>
      apply (answers_loadRequest).bind
      · intro record read
        obtain ⟨_, same, holds⟩ := read
        cases same
        rw [if_neg]
        · exact ⟨record, rfl, holds⟩
        · rintro (other | ⟨uncompleted, unacknowledged⟩)
          · exact other holds.semanticRequestHash
          · exact holds.terminal.elim uncompleted unacknowledged
      · intro e read
        obtain ⟨_, same, _⟩ := read
        cases same

theorem answers_reserve {lifetime : Instant} :
    Answers platform key hash expiry completion
      (transact key fun answer row => reserveRequest platform key hash lifetime answer row)
      fun outcome => ∃ reserved, outcome = .ok reserved ∧
        ∀ record, reserved = .ok record → Holds hash expiry completion record := by
  apply Process.along_atomic
  intro i s late
  obtain ⟨row, present, holds, _⟩ := late.row
  change s.ledger key = some row at present
  simp only [show i.fault = none from late.fault]
  cases ran : reserveRequest platform key hash lifetime i (s.ledger key) with
  | error e => exact ⟨trivial, _, rfl, fun _ same => by cases same⟩
  | ok record =>
      rw [present] at ran
      refine ⟨trivial, _, rfl, ?_⟩
      intro other same
      cases same
      exact (reserveRequest_taken ran).1 ▸ holds

/-- What `execute` checks before it opens the store. -/
structure Admissible (platform : GatewayPlatform) (call : Execution) (core : RequestCore) :
    Prop where
  stage : call.key.stage = call.request.stage
  ordinal : call.key.ordinal = call.request.ordinal
  read : requestCore platform call.request = .ok core
  size : preflightRequestSize platform core = .ok ()

/-- A request that was completed is answered after its expiry, too. -/
theorem answers_execute {call : Execution} {core : RequestCore}
    (admissible : Admissible platform call core) :
    Answers platform call.key (semanticHash platform core) expiry completion
      (execute platform call.key call.lifetime call.request call.now)
      fun outcome => outcome = .ok completion.result := by
  have continues : ∀ reserved, (∀ record, reserved = .ok record →
      Holds (semanticHash platform core) expiry completion record) →
      Answers platform call.key (semanticHash platform core) expiry completion (do
        let record ← orMatchingTerminal platform call.key (semanticHash platform core) reserved
        executeReserved platform call.key record core call.now)
        fun outcome => outcome = .ok completion.result := by
    intro reserved found
    apply (answers_orMatchingTerminal found).bind
    · intro record read
      obtain ⟨_, same, holds⟩ := read
      cases same
      exact answers_executeReserved holds
    · intro e read
      obtain ⟨_, same, _⟩ := read
      cases same
  unfold execute
  rw [admissible.read]
  apply Process.along_lift_bind
  · intro _ _
    apply Process.along_lift_bind
    · intro found same
      cases same
      rw [admissible.size]
      apply Process.along_lift_bind
      · intro _ _
        simp only
        cases validateReservationIdentity call.key (semanticHash platform core) with
        | error error => exact continues (.error error) fun _ same => by cases same
        | ok stage =>
            apply answers_reserve.bind
            · intro reserved read
              obtain ⟨_, same, found⟩ := read
              cases same
              exact continues reserved found
            · intro e read
              obtain ⟨_, same, _⟩ := read
              cases same
      · exact fun e same => by cases same
    · exact fun e same => by cases same
  · intro e same
    simp [ensureProtocol, admissible.stage, admissible.ordinal] at same

end Late

end Calls

/-! ## Every interleaving -/

/-- An empty table, and nothing sent. -/
structure Fresh (s : Exchange) : Prop where
  ledger : s.ledger = fun _ => none
  posts : s.posts = []
  acknowledgements : s.acknowledgements = []

abbrev System (platform : GatewayPlatform) :
    Machine (Configuration Exchange Answer GatewayClientError GatewayResult Execution Nat)
      (Library.Move Answer GatewayClientError GatewayResult Execution Nat) :=
  (calls platform).machine Fresh

section System

variable {platform : GatewayPlatform}
  {c d : Configuration Exchange Answer GatewayClientError GatewayResult Execution Nat}
  {label : Library.Move Answer GatewayClientError GatewayResult Execution Nat}
  {labels : List (Library.Move Answer GatewayClientError GatewayResult Execution Nat)}

theorem calls_keep : (calls platform).Keeps (exchangeDiscipline platform) (fun _ _ => True)
    (fun call _ => Delivered call.key) (fun _ _ _ _ => True) where
  idle_stable _ := Discipline.stable_const
  released _ _ inv := ⟨allows_same inv, trivial⟩
  programs _ _ _ inv _ := achieves_execute inv

theorem fresh_begins (s : Exchange) (start : Fresh s) :
    (exchangeDiscipline platform).inv s ∧ ∀ _ : Nat, True := by
  refine ⟨⟨?_, ?_⟩, fun _ => trivial⟩
  · intro post mem
    rw [start.posts] at mem
    cases mem
  · intro key row present
    rw [start.ledger] at present
    cases present

theorem ExchangeChange.refl (s : Exchange) : ExchangeChange platform s s :=
  ⟨fun _ => .inl rfl, .inl rfl, .inl rfl⟩

theorem change_of_step (reachable : (System platform).Reachable c)
    (step : (calls platform).Step c label d) : ExchangeChange platform c.state d.state := by
  rcases (calls_keep.sound fresh_begins reachable).change calls_keep step with same | change
  · rw [same]
    exact .refl c.state
  · exact change

theorem rows_of_run (reachable : (System platform).Reachable c)
    (run : (System platform).Run c labels d) (key : GatewayRequestKey) :
    RowLater (c.state.ledger key) (d.state.ledger key) := by
  induction run with
  | nil => exact .refl
  | cons step rest ih =>
      have first := later_of_step ((change_of_step reachable step).rows key)
      exact first.trans (ih (reachable.next step))

theorem Delivered.unique {key : GatewayRequestKey} {a b : GatewayResult} {s : Exchange}
    (left : Delivered key a s) (right : Delivered key b s) : a = b := by
  obtain ⟨row, completion, present, completed, rfl⟩ := left
  obtain ⟨row', completion', present', completed', rfl⟩ := right
  rw [present, Option.some.injEq] at present'
  subst present'
  rw [completed, Option.some.injEq] at completed'
  rw [completed']

theorem posts_agree (injective : Function.Injective platform.sha256Hex)
    (reachable : (System platform).Reachable c) {p q : Post} (left : p ∈ c.state.posts)
    (right : q ∈ c.state.posts) (same : p.key = q.key) :
    p.requestId = q.requestId ∧ p.body = q.body := by
  have inv := (calls_keep.sound fresh_begins reachable).inv
  obtain ⟨row, recorded⟩ := inv.posts p left
  obtain ⟨row', recorded'⟩ := inv.posts q right
  have rows := recorded'.present
  rw [← same, recorded.present, Option.some.injEq] at rows
  subst rows
  refine ⟨recorded.requestId.symm.trans recorded'.requestId, ?_⟩
  apply injective
  exact Option.some.inj (recorded.hash.symm.trans recorded'.hash)

/-- In every interleaving of calls, whatever the store, the clock and the gateway answer and
wherever a call is stopped: the submissions for a key agree; rows advance in order and keep what
they hold, a submission carries the identity of an unexpired request and an acknowledgement
follows the completion; every result is the completion of the row; a call for other input is
refused and changes nothing; and a completed request is answered after its expiry. -/
theorem gateway_ledger_safe (injective : Function.Injective platform.sha256Hex)
    (reachable : (System platform).Reachable c) :
    (∀ p ∈ c.state.posts, ∀ q ∈ c.state.posts, p.key = q.key →
      p.requestId = q.requestId ∧ p.body = q.body) ∧
    (∀ label d, (calls platform).Step c label d → ExchangeChange platform c.state d.state) ∧
    (∀ labels d key row, (System platform).Run c labels d → c.state.ledger key = some row →
      ∃ later, d.state.ledger key = some later ∧ Keeps row later) ∧
    (∀ k call result, c.running k = some (call, .done (.ok result)) →
      Delivered call.key result c.state) ∧
    (∀ labels d key a b, (System platform).Run c labels d → Delivered key a c.state →
      Delivered key b d.state → a = b) ∧
    (∀ key core labels d, (System platform).Run c labels d →
      Foreign platform key core c.state → Foreign platform key core d.state) ∧
    (∀ (call : Execution) core events outcome, requestCore platform call.request = .ok core →
      (execute platform call.key call.lifetime call.request call.now).Ends events outcome →
      (∀ event ∈ events, Foreign platform call.key core event.found) →
      (∃ e, outcome = .error e) ∧ ∀ event ∈ events, event.left = event.found) ∧
    (∀ key row, c.state.ledger key = some row → parseRecord platform row = .ok row) ∧
    ∀ call core expiry completion (offers : Nat → Answer × Exchange),
      Admissible platform call core →
      (∀ n t, Late platform call.key (semanticHash platform core) expiry completion
        ⟨(offers n).1, (offers n).2, t⟩) →
      ∃ events, (execute platform call.key call.lifetime call.request call.now).Ends events
        (.ok completion.result) ∧
        ∀ n event, events[n]? = some event → (event.answer, event.found) = offers n := by
  have sound := calls_keep.sound fresh_begins reachable
  refine ⟨?_, ?_, ?_, ?_, ?_, ?_, ?_, sound.inv.readable, ?_⟩
  · intro p left q right same
    exact posts_agree injective reachable left right same
  · intro label d step
    exact change_of_step reachable step
  · intro labels d key row run present
    exact keeps_of_later (present ▸ rows_of_run reachable run key)
  · intro k call result ended
    exact sound.exit ended
  · intro labels d key a b run left right
    exact (left.later (rows_of_run reachable run)).unique right
  · intro key core labels d run foreign
    exact foreign.later (rows_of_run reachable run key)
  · intro call core events outcome read ends foreign
    exact (untouched_execute injective read).ends ends foreign
  · intro call core expiry completion offers admissible late
    obtain ⟨events, outcome, ends, same, offered⟩ := (answers_execute admissible).total offers late
    subst same
    exact ⟨events, ends, offered⟩

/-! ### A first submission -/

def sampleRequest : ModelRequest where
  stage := .analyze
  ordinal := 0
  systemPrompt := "s"
  userPrompt := "u"
  seed := 1
  maxOutputTokens := 16
  outputFormat := .jsonSchema "answer" (.object [])

/-- The core of `sampleRequest`, after its opening brace. -/
def sampleCoreText : String :=
  "\"task\":\x7b\"id\":\"document.summary.step\",\"version\":1\x7d," ++
  "\"requirements\":\x7b\"input_modalities\":[\"text\"]," ++
  "\"output_media_type\":\"application/json\",\"structured_output\":true," ++
  "\"max_output_tokens\":16\x7d,\"generation\":\x7b\"messages\":[" ++
  "\x7b\"role\":\"system\",\"content\":\"s\"\x7d,\x7b\"role\":\"user\",\"content\":\"u\"\x7d]," ++
  "\"temperature\":0.0,\"seed\":1,\"response_schema\":\x7b\x7d\x7d\x7d"

def sampleEnvelope (requestId requestExpiresAt : String) : String :=
  "\x7b\"protocol_version\":1,\"request_id\":\"" ++ requestId ++
    "\",\"request_expires_at\":\"" ++ requestExpiresAt ++ "\"," ++ sampleCoreText

def sampleRequestId : String := "5b0c7f52-55c5-4c5e-9f1c-0a4b5d6e7f80"

def sampleExpiry : String := "1970-01-01T00:01:00Z"

def sampleCoreDigest : String :=
  "476b3b0e42ce172c94eff3bfa9b101fffbf107a8acc147f681f646ab6ef1fb9c"

def sampleBodyDigest : String :=
  "24b6234a71f715502b2da9fd1dfdc418085b6ff7ff7110fbad9107aeaf9267ec"

/-- The digests of the two texts that are hashed, and codes for other texts. -/
def sampleSha256Hex (text : String) : String :=
  if text = "\x7b" ++ sampleCoreText then sampleCoreDigest
  else if text = sampleEnvelope sampleRequestId sampleExpiry then sampleBodyDigest
  else "-" ++ text

/-- The platform on the values that the submission meets. -/
def samplePlatform : GatewayPlatform where
  sha256Hex := sampleSha256Hex
  encodeValue _ := "\x7b\x7d"
  encodeCore _ := "\x7b" ++ sampleCoreText
  encodeEnvelope requestId requestExpiresAt _ := sampleEnvelope requestId requestExpiresAt
  decodeInference _ := none
  decodeFailure _ := none
  decodeAcknowledgement _ := none
  parseValue _ := none
  isV4 text := text == sampleRequestId
  timestampText _ := sampleExpiry
  parseRfc3339 text := if text = sampleExpiry then some 60000000000 else none
  maxUtc := 8210266876799999999999

theorem sampleSha256Hex_injective : Function.Injective sampleSha256Hex := by
  have coded : ∀ text, "-" ++ text ≠ sampleCoreDigest ∧ "-" ++ text ≠ sampleBodyDigest := by
    intro text
    constructor
    · intro same
      have first := congrArg (·.toList.head?) same
      simp [sampleCoreDigest] at first
    · intro same
      have first := congrArg (·.toList.head?) same
      simp [sampleBodyDigest] at first
  have distinct : sampleCoreDigest ≠ sampleBodyDigest := by decide
  intro a b same
  unfold sampleSha256Hex at same
  split at same
  · split at same
    · simp_all
    · split at same
      · exact absurd same distinct
      · exact absurd same.symm (coded b).1
  · split at same
    · split at same
      · exact absurd same.symm distinct
      · split at same
        · simp_all
        · exact absurd same.symm (coded b).2
    · split at same
      · exact absurd same (coded a).1
      · split at same
        · exact absurd same (coded a).2
        · simpa using same

def sampleCall : Execution where
  key := ⟨"run-1", .analyze, 0⟩
  lifetime := 60000000000
  request := sampleRequest
  now := 0

def sampleAnswer : Answer where
  fault := none
  now := 0
  newV4 := sampleRequestId
  token := .ok "0123456789abcdef0123456789abcdef"
  response := .error .transport

def fresh : Exchange where
  ledger _ := none
  posts := []
  acknowledgements := []

/-- A call posts its request and hears nothing, and another call for the key posts again. -/
def resubmitted : List (Processes.Turn Answer Execution Nat) :=
  .spawn 0 sampleCall :: List.replicate 11 (.step 0 sampleAnswer) ++
    .spawn 1 sampleCall :: List.replicate 8 (.step 1 sampleAnswer)

private theorem resubmitted_keys :
    ((calls samplePlatform).follow resubmitted ⟨fresh, fun _ => none⟩).map (fun c =>
      c.state.posts.map (·.key)) = some [sampleCall.key, sampleCall.key] := by
  decide +kernel

/-- Both submissions are the same. -/
theorem sample_resubmitted :
    ∃ c first second, (System samplePlatform).Reachable c ∧ c.state.posts = [first, second] ∧
      first.key = sampleCall.key ∧ first.requestId = second.requestId ∧
      first.body = second.body := by
  have start : (System samplePlatform).Reachable ⟨fresh, fun _ => none⟩ :=
    .of_init ⟨⟨rfl, rfl, rfl⟩, fun _ => rfl⟩
  obtain ⟨c, reached, keys⟩ := Option.map_eq_some_iff.mp resubmitted_keys
  have reachable := Processes.follow_reachable start reached
  obtain ⟨first, rest, posts, own, others⟩ := List.map_eq_cons_iff.mp keys
  obtain ⟨second, none_left, rfl, same, last⟩ := List.map_eq_cons_iff.mp others
  obtain rfl := List.map_eq_nil_iff.mp last
  have agree := (gateway_ledger_safe sampleSha256Hex_injective reachable).1 first (by simp [posts])
    second (by simp [posts]) (own.trans same.symm)
  exact ⟨c, first, second, reachable, posts, own, agree⟩

end System

end DocumentSummarizer.Pipeline.Gateway
