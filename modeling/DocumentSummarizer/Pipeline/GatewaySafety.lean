import Mathlib.Logic.Relation
import DocumentSummarizer.Pipeline.GatewayLedger

/-! # Safety of the gateway ledger

A row only ever grows, so what a call has read of it stays true.  Every
submission carries the identity and the digest of the row, and every result is
the completion the row holds.
-/

namespace DocumentSummarizer.Pipeline.Gateway

open Library

/-! ## Rows -/

/-- The one way forward. -/
inductive Progress.Advance : Progress → Progress → Prop where
  | submit (hash) : Advance .reserved (.submitted hash)
  | complete (hash completion) : Advance (.submitted hash) (.completed hash completion)
  | acknowledge (hash completion) :
      Advance (.completed hash completion) (.acknowledged hash completion)

/-- One change of a row: it is reserved, or advances under its identity. -/
inductive RowStep : Row → Row → Prop where
  | reserve {record} (fresh : record.progress = .reserved) : RowStep none (some record)
  | advance {record progress} (moved : Progress.Advance record.progress progress) :
      RowStep (some record) (some { record with progress := progress })

abbrev RowLater : Row → Row → Prop := Relation.ReflTransGen RowStep

theorem Progress.Advance.keeps_hash {p q : Progress} (h : Advance p q) {hash : String}
    (known : p.gatewayRequestHash = some hash) : q.gatewayRequestHash = some hash := by
  cases h with
  | submit => cases known
  | complete | acknowledge => exact known

theorem Progress.Advance.keeps_completion {p q : Progress} (h : Advance p q)
    {completion : GatewayCompletion} (known : p.completion = some completion) :
    q.completion = some completion := by
  cases h with
  | submit | complete => cases known
  | acknowledge => exact known

/-- What a later row keeps of an earlier one. -/
structure Keeps (record later : GatewayRequestRecord) : Prop where
  requestId : later.requestId = record.requestId
  requestExpiresAt : later.requestExpiresAt = record.requestExpiresAt
  semanticRequestHash : later.semanticRequestHash = record.semanticRequestHash
  hash : ∀ hash, record.progress.gatewayRequestHash = some hash →
    later.progress.gatewayRequestHash = some hash
  completion : ∀ completion, record.progress.completion = some completion →
    later.progress.completion = some completion

theorem Keeps.refl (record : GatewayRequestRecord) : Keeps record record :=
  ⟨rfl, rfl, rfl, fun _ => id, fun _ => id⟩

theorem keeps_of_later {record : GatewayRequestRecord} {row : Row}
    (h : RowLater (some record) row) : ∃ later, row = some later ∧ Keeps record later := by
  induction h with
  | refl => exact ⟨record, rfl, .refl record⟩
  | tail _ step ih =>
      obtain ⟨middle, rfl, keeps⟩ := ih
      cases step with
      | advance moved =>
          refine ⟨_, rfl, keeps.requestId, keeps.requestExpiresAt, keeps.semanticRequestHash, ?_,
            ?_⟩
          · exact fun hash known => moved.keeps_hash (keeps.hash hash known)
          · exact fun completion known => moved.keeps_completion (keeps.completion _ known)

/-- The clock has not reached the expiry of the request. -/
def Unexpired (platform : GatewayPlatform) (record : GatewayRequestRecord) (now : Instant) :
    Prop :=
  ∃ expiresAt, platform.parseRfc3339 record.requestExpiresAt = some expiresAt ∧ now < expiresAt

/-! ## The discipline -/

/-- The submission belongs to the row of its key. -/
structure Recorded (platform : GatewayPlatform) (s : Exchange) (post : Post)
    (row : GatewayRequestRecord) : Prop where
  present : s.ledger post.key = some row
  requestId : row.requestId = post.requestId
  hash : row.progress.gatewayRequestHash = some (platform.sha256Hex post.body)

structure ExchangeInvariant (platform : GatewayPlatform) (s : Exchange) : Prop where
  posts : ∀ post ∈ s.posts, ∃ row, Recorded platform s post row
  readable : ∀ key row, s.ledger key = some row → parseRecord platform row = .ok row

/-- What one step does to the rows and the messages. -/
structure ExchangeChange (platform : GatewayPlatform) (s t : Exchange) : Prop where
  rows : ∀ key, t.ledger key = s.ledger key ∨ RowStep (s.ledger key) (t.ledger key)
  posts : t.posts = s.posts ∨ ∃ post row, t.posts = post :: s.posts ∧
    Recorded platform s post row ∧ Unexpired platform row post.checkedAt
  acknowledgements : t.acknowledgements = s.acknowledgements ∨
    ∃ sent row completion, t.acknowledgements = sent :: s.acknowledgements ∧
      s.ledger sent.key = some row ∧ row.requestId = sent.requestId ∧
      row.progress.completion = some completion

def exchangeDiscipline (platform : GatewayPlatform) : Discipline Exchange Nat where
  inv := ExchangeInvariant platform
  frame _ s t := ∀ key, RowLater (s.ledger key) (t.ledger key)
  change := ExchangeChange platform
  frame_refl _ _ _ := .refl
  frame_trans _ _ _ _ left right key := (left key).trans (right key)

section Discipline

variable {platform : GatewayPlatform} {k : Nat} {s t : Exchange}

theorem later_of_step {a b : Row} (h : b = a ∨ RowStep a b) : RowLater a b := by
  rcases h with same | step
  · rw [same]
  · exact .single step

theorem Recorded.later {post : Post} {row : GatewayRequestRecord}
    (h : Recorded platform s post row) (later : RowLater (s.ledger post.key) (t.ledger post.key)) :
    ∃ row', Recorded platform t post row' := by
  rw [h.present] at later
  obtain ⟨row', present, keeps⟩ := keeps_of_later later
  exact ⟨row', present, keeps.requestId.trans h.requestId, keeps.hash _ h.hash⟩

theorem allows_rows (inv : ExchangeInvariant platform s)
    (rows : ∀ key, t.ledger key = s.ledger key ∨ RowStep (s.ledger key) (t.ledger key))
    (readable : ∀ key row, t.ledger key = some row → parseRecord platform row = .ok row)
    (posts : t.posts = s.posts) (acknowledgements : t.acknowledgements = s.acknowledgements) :
    (exchangeDiscipline platform).Allows k s t where
  inv := {
    posts := by
      intro post mem
      rw [posts] at mem
      obtain ⟨row, recorded⟩ := inv.posts post mem
      exact recorded.later (later_of_step (rows post.key))
    readable := readable }
  frame := fun _ _ key => later_of_step (rows key)
  change := ⟨rows, .inl posts, .inl acknowledgements⟩

theorem allows_same (inv : ExchangeInvariant platform s) :
    (exchangeDiscipline platform).Allows k s s :=
  allows_rows inv (fun _ => .inl rfl) inv.readable rfl rfl

theorem allows_write {key : GatewayRequestKey} {record : GatewayRequestRecord}
    (inv : ExchangeInvariant platform s)
    (legal : s.ledger key = some record ∨ RowStep (s.ledger key) (some record))
    (readable : parseRecord platform record = .ok record) :
    (exchangeDiscipline platform).Allows k s (s.write key record) := by
  refine allows_rows inv ?_ ?_ rfl rfl
  · intro other
    by_cases same : other = key
    · subst same
      simp only [Exchange.write, Function.update_self]
      exact legal.imp Eq.symm id
    · simp [Exchange.write, Function.update_of_ne same]
  · intro other row present
    by_cases same : other = key
    · subst same
      simp only [Exchange.write, Function.update_self, Option.some.injEq] at present
      exact present ▸ readable
    · simp only [Exchange.write, Function.update_of_ne same] at present
      exact inv.readable other row present

theorem allows_post {post : Post} {row : GatewayRequestRecord}
    (inv : ExchangeInvariant platform s) (recorded : Recorded platform s post row)
    (unexpired : Unexpired platform row post.checkedAt) :
    (exchangeDiscipline platform).Allows k s { s with posts := post :: s.posts } where
  inv := {
    posts := by
      intro other mem
      cases mem with
      | head => exact ⟨row, recorded.present, recorded.requestId, recorded.hash⟩
      | tail _ mem =>
          obtain ⟨known, there⟩ := inv.posts other mem
          exact ⟨known, there.present, there.requestId, there.hash⟩
    readable := inv.readable }
  frame := fun _ _ _ => .refl
  change := ⟨fun _ => .inl rfl, .inr ⟨post, row, rfl, recorded, unexpired⟩, .inl rfl⟩

theorem allows_acknowledgement {sent : Acknowledgement} {row : GatewayRequestRecord}
    {completion : GatewayCompletion} (inv : ExchangeInvariant platform s)
    (present : s.ledger sent.key = some row) (requestId : row.requestId = sent.requestId)
    (completed : row.progress.completion = some completion) :
    (exchangeDiscipline platform).Allows k s
      { s with acknowledgements := sent :: s.acknowledgements } where
  inv := by
    constructor
    · intro post mem
      obtain ⟨known, there⟩ := inv.posts post mem
      exact ⟨known, there.present, there.requestId, there.hash⟩
    · exact inv.readable
  frame := fun _ _ _ => .refl
  change := ⟨fun _ => .inl rfl, .inl rfl,
    .inr ⟨sent, row, completion, rfl, present, requestId, completed⟩⟩

/-! ## What a call knows -/

/-- The row was read as `record`, and can only have grown since. -/
def Knows (key : GatewayRequestKey) (record : GatewayRequestRecord) (s : Exchange) : Prop :=
  ∃ row, s.ledger key = some row ∧ Keeps record row

/-- The result is the durably stored completion. -/
def Delivered (key : GatewayRequestKey) (result : GatewayResult) (s : Exchange) : Prop :=
  ∃ row completion, s.ledger key = some row ∧ row.progress.completion = some completion ∧
    result = completion.result

theorem Keeps.trans {a b c : GatewayRequestRecord} (left : Keeps a b) (right : Keeps b c) :
    Keeps a c where
  requestId := right.requestId.trans left.requestId
  requestExpiresAt := right.requestExpiresAt.trans left.requestExpiresAt
  semanticRequestHash := right.semanticRequestHash.trans left.semanticRequestHash
  hash := fun hash known => right.hash hash (left.hash hash known)
  completion := fun _ known => right.completion _ (left.completion _ known)

variable {key : GatewayRequestKey}

theorem Knows.later {record : GatewayRequestRecord}
    (h : Knows key record s) (later : ∀ key, RowLater (s.ledger key) (t.ledger key)) :
    Knows key record t := by
  obtain ⟨row, present, keeps⟩ := h
  have grown := later key
  rw [present] at grown
  obtain ⟨row', present', keeps'⟩ := keeps_of_later grown
  exact ⟨row', present', keeps.trans keeps'⟩

theorem Delivered.later {result : GatewayResult}
    (h : Delivered key result s) (later : ∀ key, RowLater (s.ledger key) (t.ledger key)) :
    Delivered key result t := by
  obtain ⟨row, completion, present, completed, delivered⟩ := h
  have grown := later key
  rw [present] at grown
  obtain ⟨row', present', keeps⟩ := keeps_of_later grown
  exact ⟨row', completion, present', keeps.completion _ completed, delivered⟩

theorem stable_knows {record : GatewayRequestRecord} :
    (exchangeDiscipline platform).Stable k (Knows key record) :=
  fun _ _ _ frame h => h.later frame

theorem stable_delivered {result : GatewayResult} :
    (exchangeDiscipline platform).Stable k (Delivered key result) :=
  fun _ _ _ frame h => h.later frame

theorem rows_of_allows (h : (exchangeDiscipline platform).Allows k s t) :
    ∀ key, RowLater (s.ledger key) (t.ledger key) :=
  fun key => later_of_step (h.change.rows key)

end Discipline

/-! ## The operations of the store -/

section Store

variable {platform : GatewayPlatform}

/-- What a committed transaction does to the row. -/
structure Commits (platform : GatewayPlatform) (row : Row) (record : GatewayRequestRecord) :
    Prop where
  legal : row = some record ∨ RowStep row (some record)
  readable : parseRecord platform record = .ok record

theorem parseRecord_ok {row record : GatewayRequestRecord}
    (h : parseRecord platform row = .ok record) : record = row := by
  unfold parseRecord at h
  split at h
  · cases h
  · split at h
    · cases h
    · split at h
      · cases h
      · split at h
        · cases h
        · split at h
          · cases h
            rfl
          · rename_i completion _
            cases valid : validateCompletion platform completion with
            | error e =>
                rw [valid] at h
                cases h
            | ok _ =>
                rw [valid] at h
                cases h
                rfl

variable {record : GatewayRequestRecord} {row : Row}

theorem loadRequired_ok
    (h : loadRequired platform row = .ok record) :
    row = some record ∧ parseRecord platform record = .ok record := by
  cases row with
  | none => cases h
  | some row =>
      have same := parseRecord_ok h
      exact ⟨congrArg some same.symm, same ▸ h⟩

theorem commits_same
    (h : loadRequired platform row = .ok record) : Commits platform row record :=
  ⟨.inl (loadRequired_ok h).1, (loadRequired_ok h).2⟩

theorem commits_advance {before record : GatewayRequestRecord} {progress : Progress}
    (found : loadRequired platform row = .ok before)
    (moved : Progress.Advance before.progress progress)
    (h : parseRecord platform { before with progress := progress } = .ok record) :
    Commits platform row record := by
  have same := parseRecord_ok h
  subst same
  exact ⟨.inr ((loadRequired_ok found).1 ▸ .advance moved), h⟩

theorem reserveRequest_commits {key : GatewayRequestKey} {hash : String} {lifetime : Instant}
    {answer : Answer}
    (h : reserveRequest platform key hash lifetime answer row = .ok record) :
    Commits platform row record ∧ record.semanticRequestHash = hash := by
  unfold reserveRequest at h
  obtain ⟨expiresAt, -, h⟩ := peel_ok.mp h
  obtain ⟨found, parsed, h⟩ := peel_ok.mp h
  have same := parseRecord_ok parsed
  subst same
  split at h
  · cases h
  · rename_i own
    cases h
    refine ⟨⟨?_, parsed⟩, not_not.mp own⟩
    cases row with
    | none => exact .inr (.reserve rfl)
    | some row => exact .inl rfl

theorem markSubmitted_commits {hash : String} {now : Instant}
    (h : markSubmitted platform hash now row = .ok record) :
    Commits platform row record ∧ record.progress.gatewayRequestHash = some hash := by
  unfold markSubmitted at h
  obtain ⟨-, -, h⟩ := peel_ok.mp h
  obtain ⟨before, found, h⟩ := peel_ok.mp h
  split at h
  · cases h
  · rename_i own
    simp only [Bool.not_eq_true, Option.any_eq_false, bne_eq_false_iff_eq] at own
    split at h
    · rename_i reserved
      split at h
      · cases h
      · split at h
        · cases h
        · have same := parseRecord_ok h
          refine ⟨commits_advance found (reserved ▸ .submit hash) h, ?_⟩
          rw [same]
          rfl
    · rename_i later
      cases h
      refine ⟨commits_same found, ?_⟩
      cases progress : record.progress with
      | reserved => exact absurd progress later
      | submitted stored | completed stored _ | acknowledged stored _ =>
          rw [progress] at own
          exact congrArg some (own stored rfl)

theorem persistCompletion_commits {hash : String} {completion : GatewayCompletion}
    (h : persistCompletion platform hash completion row = .ok record) :
    Commits platform row record ∧ record.progress.completion = some completion := by
  unfold persistCompletion at h
  obtain ⟨-, -, h⟩ := peel_ok.mp h
  obtain ⟨-, -, h⟩ := peel_ok.mp h
  obtain ⟨before, found, h⟩ := peel_ok.mp h
  split at h
  · cases h
  · split at h
    · rename_i stored submitted
      have same := parseRecord_ok h
      refine ⟨commits_advance found (submitted ▸ .complete stored completion) h, ?_⟩
      rw [same]
      rfl
    · cases h
    · rename_i stored completed
      split at h
      · rename_i own
        cases h
        exact ⟨commits_same found, by rw [completed, ← own]; rfl⟩
      · cases h
    · rename_i stored acknowledged
      split at h
      · rename_i own
        cases h
        exact ⟨commits_same found, by rw [acknowledged, ← own]; rfl⟩
      · cases h

theorem markAcknowledged_commits
    (h : markAcknowledged platform row = .ok record) : Commits platform row record := by
  unfold markAcknowledged at h
  obtain ⟨before, found, h⟩ := peel_ok.mp h
  split at h
  · rename_i hash completion completed
    exact commits_advance found (completed ▸ .acknowledge hash completion) h
  · cases h
    exact commits_same found
  · cases h
  · cases h

end Store

/-! ## The steps of a call -/

section Calls

variable {platform : GatewayPlatform} {k : Nat} {s : Exchange} {key : GatewayRequestKey}

/-- The call keeps the discipline and returns where `post` holds. -/
def Achieves (platform : GatewayPlatform) (k : Nat) {α : Type} (p : Call α)
    (post : α → Exchange → Prop) (s : Exchange) : Prop :=
  (exchangeDiscipline platform).Sat k p post (fun _ _ => True) s

theorem achieves_fail {α : Type} {post : α → Exchange → Prop} {e : GatewayClientError} :
    Achieves platform k (Process.fail e) post s :=
  Discipline.sat_fail Discipline.stable_const trivial

theorem achieves_lift {α : Type} {result : Except GatewayClientError α} :
    Achieves platform k (Process.lift result) (fun a _ => result = .ok a) s :=
  Discipline.sat_lift (fun _ success => ⟨Discipline.stable_const, success⟩)
    fun _ _ => ⟨Discipline.stable_const, trivial⟩

theorem Achieves.keeping {α : Type} {p : Call α} {post : α → Exchange → Prop}
    {P : Exchange → Prop} (h : Achieves platform k p post s)
    (later : ∀ s t, (∀ key, RowLater (s.ledger key) (t.ledger key)) → P s → P t) (holds : P s) :
    Achieves platform k p (fun a t => post a t ∧ P t) s := by
  have both := Discipline.Sat.keeping h (fun s t _ frame => later s t frame)
    (fun s t allowed => later s t (rows_of_allows allowed)) holds
  exact both.weaken (fun _ _ _ held => held) fun _ _ _ _ => trivial

variable {record : GatewayRequestRecord}

theorem Achieves.knowing {α : Type} {p : Call α} {post : α → Exchange → Prop}
    (h : Achieves platform k p post s)
    (known : Knows key record s) :
    Achieves platform k p (fun a t => post a t ∧ Knows key record t) s :=
  h.keeping (fun _ _ later known => known.later later) known

theorem achieves_clock : Achieves platform k clock (fun _ _ => True) s := by
  apply Discipline.sat_atomic Discipline.stable_const trivial (fun _ => Discipline.stable_const)
    fun _ => Discipline.stable_const
  exact fun i t inv _ => ⟨allows_same inv, trivial⟩

theorem achieves_readToken : Achieves platform k readToken (fun _ _ => True) s := by
  apply Discipline.sat_atomic Discipline.stable_const trivial (fun _ => Discipline.stable_const)
    fun _ => Discipline.stable_const
  exact fun i t inv _ => ⟨allows_same inv, trivial⟩

theorem achieves_receive : Achieves platform k receive (fun _ _ => True) s := by
  apply Discipline.sat_atomic Discipline.stable_const trivial (fun _ => Discipline.stable_const)
    fun _ => Discipline.stable_const
  exact fun i t inv _ => ⟨allows_same inv, trivial⟩

theorem achieves_loadRequest : Achieves platform k (loadRequest platform key) (Knows key) s := by
  apply Discipline.sat_atomic Discipline.stable_const trivial (fun _ => stable_knows)
    fun _ => Discipline.stable_const
  intro i t inv _
  cases i.fault with
  | some fault => exact ⟨allows_same inv, trivial⟩
  | none =>
      cases found : loadRequired platform (t.ledger key) with
      | error e =>
          exact ⟨allows_same inv, trivial⟩
      | ok record =>
          exact ⟨allows_same inv, record, (loadRequired_ok found).1, .refl record⟩

/-- A transaction that reports success has committed the row it returns. -/
theorem achieves_transact {run : Answer → Row → Except GatewayStoreError GatewayRequestRecord}
    {fact : GatewayRequestRecord → Prop}
    (commits : ∀ answer row record, run answer row = .ok record →
      Commits platform row record ∧ fact record) :
    Achieves platform k (transact key run)
      (fun outcome t => ∀ record, outcome = .ok record → Knows key record t ∧ fact record) s := by
  apply Discipline.sat_atomic Discipline.stable_const trivial ?_ fun _ => Discipline.stable_const
  · intro i t inv _
    cases ran : run i (t.ledger key) with
    | error e =>
        cases i.fault with
        | none =>
            exact ⟨allows_same inv, nofun⟩
        | some fault =>
            exact ⟨allows_same inv, nofun⟩
    | ok record =>
        obtain ⟨committed, holds⟩ := commits i _ record ran
        have allowed := @allows_write platform k t key record inv
          (committed.legal.imp id id) committed.readable
        cases i.fault with
        | none =>
            refine ⟨allowed, ?_⟩
            intro other same
            cases same
            exact ⟨⟨record, Function.update_self .., .refl record⟩, holds⟩
        | some fault =>
            refine ⟨?_, nofun⟩
            change (exchangeDiscipline platform).Allows k t
              (if fault.applied then t.write key record else t)
            split
            · exact allowed
            · exact allows_same inv
  · intro outcome s t inv frame h record same
    exact ⟨(h record same).1.later frame, (h record same).2⟩

theorem resultFromRecord_delivers {result : GatewayResult}
    (known : Knows key record s) (h : resultFromRecord record = .ok result) :
    Delivered key result s := by
  unfold resultFromRecord at h
  split at h
  · rename_i completion completed
    cases h
    obtain ⟨row, present, keeps⟩ := known
    exact ⟨row, completion, present, keeps.completion _ completed, rfl⟩
  · cases h

theorem achieves_result (known : Knows key record s) :
    Achieves platform k (Process.lift (resultFromRecord record)) (Delivered key) s :=
  Discipline.sat_lift
    (fun _ success => ⟨stable_delivered, resultFromRecord_delivers known success⟩)
    fun _ _ => ⟨Discipline.stable_const, trivial⟩

theorem achieves_settledOrError {error : GatewayClientError}
    (inv : ExchangeInvariant platform s) :
    Achieves platform k (settledOrError platform key error) (Delivered key) s := by
  apply Discipline.Sat.bind inv achieves_loadRequest
  intro current t inv known
  cases current.progress.state with
  | acknowledged =>
      exact achieves_result known
  | completed =>
      apply Discipline.Sat.bind inv (achieves_clock.knowing known)
      intro now u inv known
      apply Discipline.Sat.bind inv (achieves_lift.knowing known.2)
      intro expired v inv known
      cases expired with
      | true => exact achieves_result known.2
      | false => exact achieves_fail
  | reserved | submitted =>
      exact achieves_fail

theorem achieves_readTokenOrTerminal (inv : ExchangeInvariant platform s) :
    Achieves platform k (readTokenOrTerminal platform key)
      (fun found t => ∀ result, found = .terminal result → Delivered key result t) s := by
  have stable : ∀ found : TokenOrTerminal, (exchangeDiscipline platform).Stable k
      fun t => ∀ result, found = .terminal result → Delivered key result t :=
    fun found s t _ frame h result same => (h result same).later frame
  apply Discipline.Sat.bind inv achieves_readToken
  intro token t inv _
  cases token with
  | ok token => exact Discipline.sat_pure (stable _) nofun
  | error error =>
      apply Discipline.Sat.bind inv (achieves_settledOrError inv)
      intro result u inv delivered
      have hands_on : ∀ other, TokenOrTerminal.terminal result = .terminal other →
          Delivered key other u := by
        intro other same
        cases same
        exact delivered
      exact Discipline.sat_pure (stable _) hands_on

theorem achieves_acknowledge {result : GatewayResult}
    (inv : ExchangeInvariant platform s) (known : Knows key record s)
    (completed : resultFromRecord record = .ok result) :
    Achieves platform k (acknowledge platform key record.requestId) (fun _ _ => True) s := by
  have sent : Achieves platform k (postAcknowledgement ⟨key, record.requestId⟩)
      (fun _ _ => True) s := by
    apply Discipline.sat_atomic stable_knows known (fun _ => Discipline.stable_const)
      fun _ => Discipline.stable_const
    intro i t inv known
    obtain ⟨row, present, keeps⟩ := known
    cases stored : record.progress.completion with
    | none =>
        simp only [resultFromRecord, stored] at completed
        cases completed
    | some completion =>
        refine ⟨?_, trivial⟩
        exact allows_acknowledgement inv present keeps.requestId (keeps.completion _ stored)
  apply Discipline.Sat.bind inv sent
  intro _ t inv _
  apply Discipline.Sat.bind inv achieves_receive
  intro response u inv _
  cases response with
  | ok response => exact Discipline.sat_pure Discipline.stable_const trivial
  | error error => exact Discipline.sat_pure Discipline.stable_const trivial

/-- What a call learns from the row it has read: a result, or that the request is still open. -/
def Resolved (platform : GatewayPlatform) (key : GatewayRequestKey)
    (record : GatewayRequestRecord) (now : Instant) :
    Option GatewayResult → Exchange → Prop
  | some result, s => Delivered key result s
  | none, _ => record.progress.state = .reserved ∨
      (record.progress.state = .submitted ∧ Unexpired platform record now)

variable {now : Instant}

theorem stable_resolved
    {found : Option GatewayResult} :
    (exchangeDiscipline platform).Stable k (Resolved platform key record now found) := by
  cases found with
  | none => exact Discipline.stable_const
  | some result => exact stable_delivered

theorem unexpired_of_requestExpired
    (h : requestExpired platform record now = .ok false) : Unexpired platform record now := by
  unfold requestExpired at h
  split at h
  · rename_i expiresAt parsed
    simp only [Except.ok.injEq, decide_eq_false_iff_not, Int.not_le] at h
    exact ⟨expiresAt, parsed, h⟩
  · cases h

/-- A completed row is acknowledged before its result is returned. -/
theorem achieves_acknowledged {result : GatewayResult}
    (inv : ExchangeInvariant platform s) (known : Knows key record s)
    (read : resultFromRecord record = .ok result) :
    Achieves platform k (do
      match ← acknowledge platform key record.requestId with
      | .ok () => do
        let _ ← transact key fun _ row => markAcknowledged platform row
        return some result
      | .error error => return some (← settledOrError platform key error))
      (Resolved platform key record now) s := by
  have answers : ∀ {t : Exchange} {result : GatewayResult}, Delivered key result t →
      Achieves platform k (pure (some result)) (Resolved platform key record now) t :=
    fun delivered => Discipline.sat_pure stable_resolved delivered
  apply Discipline.Sat.bind inv ((achieves_acknowledge inv known read).knowing known)
  intro acknowledged v inv ⟨_, known⟩
  cases acknowledged with
  | ok _ =>
      have marked : Achieves platform k
          (transact key fun _ row => markAcknowledged platform row)
          (fun outcome t => (∀ record, outcome = .ok record →
            Knows key record t ∧ True) ∧ Knows key record t) v :=
        (achieves_transact fun _ _ _ ran => ⟨markAcknowledged_commits ran, trivial⟩).knowing
          known
      apply Discipline.Sat.bind inv marked
      intro _ w _ ⟨_, known⟩
      exact answers (resultFromRecord_delivers known read)
  | error error =>
      apply Discipline.Sat.bind inv (achieves_settledOrError inv)
      intro settled w _ delivered
      exact answers delivered

theorem achieves_resolveLocalRecord
    (inv : ExchangeInvariant platform s) (known : Knows key record s) :
    Achieves platform k (resolveLocalRecord platform key record now)
      (Resolved platform key record now) s := by
  have answers : ∀ {t : Exchange} {result : GatewayResult}, Delivered key result t →
      Achieves platform k (pure (some result)) (Resolved platform key record now) t :=
    fun delivered => Discipline.sat_pure stable_resolved delivered
  unfold resolveLocalRecord
  cases state : record.progress.state with
  | acknowledged =>
      apply Discipline.Sat.bind inv (achieves_result known)
      intro result t _ delivered
      exact answers delivered
  | reserved => exact Discipline.sat_pure stable_resolved (.inl state)
  | submitted =>
      apply Discipline.Sat.bind inv achieves_lift
      intro expired t _ checked
      cases expired with
      | true => exact achieves_fail
      | false =>
          exact Discipline.sat_pure stable_resolved
            (.inr ⟨state, unexpired_of_requestExpired checked⟩)
  | completed =>
      apply Discipline.Sat.bind inv
        ((achieves_lift.knowing known).weaken (fun _ _ _ held => held) fun _ _ _ _ => trivial)
      intro result t inv ⟨read, known⟩
      have delivers : ∀ {u : Exchange}, Knows key record u → Delivered key result u :=
        fun known => resultFromRecord_delivers known read
      apply Discipline.Sat.bind inv (achieves_clock.knowing known)
      intro checkedAt u inv ⟨_, known⟩
      apply Discipline.Sat.bind inv (achieves_lift.knowing known)
      intro expired v inv ⟨_, known⟩
      cases expired with
      | true => exact answers (delivers known)
      | false =>
          apply Discipline.Sat.bind inv ((achieves_readTokenOrTerminal inv).knowing known)
          intro token w inv ⟨terminal, known⟩
          cases token with
          | terminal settled => exact answers (terminal settled rfl)
          | token token =>
              apply Discipline.Sat.bind inv (achieves_clock.knowing known)
              intro checkedAgain x inv ⟨_, known⟩
              apply Discipline.Sat.bind inv (achieves_lift.knowing known)
              intro expired y inv ⟨_, known⟩
              cases expired with
              | true => exact answers (delivers known)
              | false => exact achieves_acknowledged inv known read

/-! ### A whole call -/

theorem achieves_reconcileOrPropagate {error : GatewayClientError}
    (inv : ExchangeInvariant platform s) :
    Achieves platform k (reconcileOrPropagate platform key error) (Delivered key) s := by
  apply Discipline.Sat.bind inv achieves_loadRequest
  intro current t inv known
  apply Discipline.Sat.bind inv (achieves_clock.knowing known)
  intro now u inv ⟨_, known⟩
  apply Discipline.Sat.bind inv (achieves_resolveLocalRecord inv known)
  intro found v _ resolved
  cases found with
  | some result => exact Discipline.sat_pure stable_delivered resolved
  | none => exact achieves_fail

/-- The request is settled: a row that another call has completed. -/
def Terminal (record : GatewayRequestRecord) : Prop :=
  record.progress.state = .completed ∨ record.progress.state = .acknowledged

section

variable (inv : ExchangeInvariant platform s)

include inv

theorem achieves_matchingTerminal {hash : String} {error : GatewayStoreError}
    :
    Achieves platform k (matchingTerminal platform key hash error)
      (fun record t => Knows key record t ∧ Terminal record) s := by
  apply Discipline.Sat.bind inv achieves_loadRequest
  intro current t _ known
  by_cases refused : current.semanticRequestHash ≠ hash ∨
      (current.progress.state ≠ .completed ∧ current.progress.state ≠ .acknowledged)
  · rw [if_pos refused]
    exact achieves_fail
  · rw [if_neg refused]
    simp only [not_or, not_and_or, not_not] at refused
    exact Discipline.sat_pure (stable_knows.and Discipline.stable_const) ⟨known, refused.2⟩

theorem achieves_orMatchingTerminal {hash : String} {fact : GatewayRequestRecord → Prop}
    {outcome : Except GatewayStoreError GatewayRequestRecord}
    (h : ∀ record, outcome = .ok record → Knows key record s ∧ fact record) :
    Achieves platform k (orMatchingTerminal platform key hash outcome)
      (fun record t => Knows key record t ∧ (fact record ∨ Terminal record)) s := by
  cases outcome with
  | ok record =>
      obtain ⟨known, holds⟩ := h record rfl
      exact Discipline.sat_pure (stable_knows.and Discipline.stable_const) ⟨known, .inl holds⟩
  | error error =>
      apply (achieves_matchingTerminal inv).weaken
      · exact fun record t _ held => ⟨held.1, .inr held.2⟩
      · exact fun _ _ _ _ => trivial

theorem achieves_resolvedNow {persisted : GatewayRequestRecord}
    (known : Knows key persisted s) :
    Achieves platform k (do
      match ← resolveLocalRecord platform key persisted (← clock) with
      | some result => return result
      | none => Process.fail (.protocol "persisted completion state is invalid"))
      (Delivered key) s := by
  apply Discipline.Sat.bind inv (achieves_clock.knowing known)
  intro now u inv ⟨_, known⟩
  apply Discipline.Sat.bind inv (achieves_resolveLocalRecord inv known)
  intro found v _ resolved
  cases found with
  | some result => exact Discipline.sat_pure stable_delivered resolved
  | none => exact achieves_fail

theorem achieves_finishSubmission {requestId requestHash : String}
    :
    Achieves platform k (finishSubmission platform key requestId requestHash) (Delivered key)
      s := by
  apply Discipline.Sat.bind inv achieves_receive
  intro response t inv _
  cases response with
  | error error => exact achieves_reconcileOrPropagate inv
  | ok response =>
      simp only
      cases parseInferenceResponse platform response requestId with
      | error error => exact achieves_reconcileOrPropagate inv
      | ok completion =>
          apply Discipline.Sat.bind inv (achieves_transact fun _ _ _ ran =>
            persistCompletion_commits ran)
          intro outcome u inv committed
          cases outcome with
          | ok persisted => exact achieves_resolvedNow inv (committed persisted rfl).1
          | error error =>
              apply Discipline.Sat.bind inv achieves_loadRequest
              intro current v inv known
              by_cases differs : current.progress.completion ≠ some completion
              · rw [if_pos differs]
                exact achieves_fail
              · rw [if_neg differs]
                exact achieves_resolvedNow inv known

/-- A submission is posted with the identity and the digest of the row, before its expiry. -/
theorem achieves_submit {record submitted : GatewayRequestRecord} {requestBody : String}
    (known : Knows key record s)
    (marked : Knows key submitted s)
    (hash : submitted.progress.gatewayRequestHash = some (platform.sha256Hex requestBody)) :
    Achieves platform k
      (submit platform key record.requestId (platform.sha256Hex requestBody) requestBody)
      (Delivered key) s := by
  apply Discipline.Sat.bind inv (((achieves_readTokenOrTerminal inv).knowing known).knowing marked)
  intro token t inv ⟨⟨terminal, known⟩, marked⟩
  cases token with
  | terminal result => exact Discipline.sat_pure stable_delivered (terminal result rfl)
  | token token =>
      apply Discipline.Sat.bind inv ((achieves_loadRequest.knowing known).knowing marked)
      intro current u inv ⟨⟨read, known⟩, marked⟩
      apply Discipline.Sat.bind inv (((achieves_clock.knowing read).knowing known).knowing marked)
      intro now v inv ⟨⟨⟨_, read⟩, known⟩, marked⟩
      have resolves : Achieves platform k (resolveLocalRecord platform key current now)
          (Resolved platform key current now) v := achieves_resolveLocalRecord inv read
      apply Discipline.Sat.bind inv (((resolves.knowing read).knowing known).knowing marked)
      intro found w inv ⟨⟨⟨resolved, read⟩, known⟩, marked⟩
      cases found with
      | some result => exact Discipline.sat_pure stable_delivered resolved
      | none =>
          by_cases other : current.progress.state ≠ .submitted
          · simp only [if_pos other]
            exact achieves_fail
          · simp only [if_neg other]
            have unexpired : Unexpired platform current now := by
              rcases resolved with reserved | ⟨_, unexpired⟩
              · rw [not_not.mp other] at reserved
                cases reserved
              · exact unexpired
            have posts : Achieves platform k
                (postInference ⟨key, record.requestId, requestBody, now⟩) (fun _ _ => True) w := by
              have all : (exchangeDiscipline platform).Stable k
                  (fun x => (Knows key current x ∧ Knows key record x) ∧ Knows key submitted x) :=
                (stable_knows.and stable_knows).and stable_knows
              apply Discipline.sat_atomic all ⟨⟨read, known⟩, marked⟩
                (fun _ => Discipline.stable_const) fun _ => Discipline.stable_const
              intro i x inv ⟨⟨⟨row, present, current_keeps⟩, ⟨row', present', keeps⟩⟩,
                ⟨row'', present'', marked_keeps⟩⟩
              rw [present, Option.some.injEq] at present' present''
              subst present' present''
              refine ⟨allows_post inv ⟨present, keeps.requestId, marked_keeps.hash _ hash⟩ ?_,
                trivial⟩
              obtain ⟨expiresAt, parsed, before⟩ := unexpired
              exact ⟨expiresAt, current_keeps.requestExpiresAt ▸ parsed, before⟩
            apply Discipline.Sat.bind inv posts
            intro _ x inv _
            exact achieves_finishSubmission inv

theorem achieves_executeReserved {core : RequestCore}
    (known : Knows key record s) :
    Achieves platform k (executeReserved platform key record core now) (Delivered key) s := by
  have resolves : Achieves platform k (resolveLocalRecord platform key record now)
      (Resolved platform key record now) s := achieves_resolveLocalRecord inv known
  apply Discipline.Sat.bind inv (resolves.knowing known)
  intro found t inv ⟨resolved, known⟩
  cases found with
  | some result => exact Discipline.sat_pure stable_delivered resolved
  | none =>
      simp only
      split
      · exact achieves_fail
      apply Discipline.Sat.bind inv (achieves_clock.knowing known)
      intro submittedAt u inv ⟨_, known⟩
      have marks : Achieves platform k
          (transact key fun _ row => markSubmitted platform (platform.sha256Hex
            (platform.encodeEnvelope record.requestId record.requestExpiresAt core)) submittedAt
            row) _ u :=
        achieves_transact fun _ _ _ ran => markSubmitted_commits ran
      apply Discipline.Sat.bind inv (marks.knowing known)
      intro outcome v inv ⟨committed, known⟩
      apply Discipline.Sat.bind inv ((achieves_orMatchingTerminal inv committed).knowing known)
      intro submitted w inv ⟨⟨marked, hash⟩, known⟩
      apply Discipline.Sat.bind inv ((achieves_clock.knowing marked).knowing known)
      intro checkedAt x inv ⟨⟨_, marked⟩, known⟩
      have resolves : Achieves platform k
          (resolveLocalRecord platform key submitted checkedAt)
          (Resolved platform key submitted checkedAt) x := achieves_resolveLocalRecord inv marked
      apply Discipline.Sat.bind inv ((resolves.knowing marked).knowing known)
      intro found y inv ⟨⟨resolved, marked⟩, known⟩
      cases found with
      | some result => exact Discipline.sat_pure stable_delivered resolved
      | none =>
          by_cases other : submitted.progress.state ≠ .submitted
          · rw [if_pos other]
            exact achieves_fail
          · rw [if_neg other]
            rcases hash with hash | terminal
            · exact achieves_submit inv known marked hash
            · rcases terminal with completed | acknowledged
              · exact absurd completed (by simp [not_not.mp other])
              · exact absurd acknowledged (by simp [not_not.mp other])

theorem achieves_execute {lifetime : Instant} {request : ModelRequest}
    :
    Achieves platform k (execute platform key lifetime request now) (Delivered key) s := by
  apply Discipline.Sat.bind inv achieves_lift
  intro _ t inv _
  apply Discipline.Sat.bind inv achieves_lift
  intro core u inv _
  apply Discipline.Sat.bind inv achieves_lift
  intro _ v inv _
  have continues : ∀ (outcome : Except GatewayStoreError GatewayRequestRecord) (w : Exchange),
      ExchangeInvariant platform w →
      (∀ record, outcome = .ok record → Knows key record w ∧
        record.semanticRequestHash = semanticHash platform core) →
      Achieves platform k (do
        let record ← orMatchingTerminal platform key (semanticHash platform core) outcome
        executeReserved platform key record core now) (Delivered key) w := by
    intro outcome w inv committed
    apply Discipline.Sat.bind inv (achieves_orMatchingTerminal inv committed)
    intro record x inv ⟨known, _⟩
    exact achieves_executeReserved inv known
  simp only
  cases validateReservationIdentity key (semanticHash platform core) with
  | error error => exact continues (.error error) v inv nofun
  | ok stage =>
      apply Discipline.Sat.bind inv (achieves_transact fun _ _ _ ran =>
        reserveRequest_commits ran)
      intro outcome w inv committed
      exact continues outcome w inv committed

end

end Calls

end DocumentSummarizer.Pipeline.Gateway
