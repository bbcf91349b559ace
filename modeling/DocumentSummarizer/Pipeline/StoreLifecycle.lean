import DocumentSummarizer.Library.FileLock
import DocumentSummarizer.Library.Process

/-! # The lifecycle of the store

Three lock files stand beside the database: the initialization gate, the lease
that every Store keeps, and the lock of its primary owner.  The calls that prepare
a store, attach to it and open connections are processes over these files.
-/

namespace DocumentSummarizer.Pipeline.Lifecycle

open Library

/-- One call, and the Store that it returns until that is dropped.  A process runs any number of
them, and its crash is the crash of each. -/
abbrev Holder := Nat

/-- Device and inode, or volume and file index. -/
abbrev FileIdentity := UInt64 × UInt64

inductive StoreError where
  | fileAccess (code : Nat)
  | notInitialized (reason : String)
  | unavailable
  | unsupportedFilesystem (reason : String)
  | sqlite (code : Nat)
  deriving DecidableEq, Repr

/-- `SQLITE_BUSY` -/
def busy : StoreError :=
  .sqlite 5

/-- Busy or locked, extended codes included. -/
def isContention : StoreError → Bool
  | .sqlite code => code % 256 == 5 || code % 256 == 6
  | _ => false

def fixedRuntime (sqliteVersion : Nat) : Except StoreError Unit :=
  if sqliteVersion < 3051003 then
    .error (.notInitialized "SQLite WAL-reset fix is required")
  else
    .ok ()

/-! ## The readiness record -/

def currentSchemaVersion : Nat :=
  22

/-- The hyphenated form in lower case, the one that parses and prints as itself. -/
def isUuidText (text : List Char) : Bool :=
  text.length == 36 &&
    text.zipIdx.all fun (c, i) =>
      if i = 8 ∨ i = 13 ∨ i = 18 ∨ i = 23 then c == '-'
      else c.isDigit || ('a' ≤ c && c ≤ 'f')

structure Uuid where
  text : String
  canonical : isUuidText text.toList = true
  deriving DecidableEq

def readinessPrefix (identity : FileIdentity) : String :=
  s!"docsum-store-v2:{identity.1}:{identity.2}:{currentSchemaVersion}:"

def readinessRecord (identity : FileIdentity) (uuid : Uuid) : String :=
  readinessPrefix identity ++ uuid.text

/-- `read_readiness`, on what the file holds. -/
def readReadiness (text : String) (identity : FileIdentity) : Except StoreError String :=
  if text.utf8ByteSize > 128 then
    .error (.notInitialized "Invalid store readiness record")
  else if (readinessPrefix identity).toList.isPrefixOf text.toList &&
      isUuidText (text.toList.drop (readinessPrefix identity).toList.length) then
    .ok text
  else
    .error (.notInitialized "Prepared store identity does not match")

theorem Uuid.length_text (uuid : Uuid) : uuid.text.toList.length = 36 := by
  have canonical := uuid.canonical
  simp only [isUuidText, Bool.and_eq_true, beq_iff_eq] at canonical
  exact canonical.1

theorem readinessRecord_inj {identity identity' : FileIdentity} {uuid uuid' : Uuid}
    (h : readinessRecord identity uuid = readinessRecord identity' uuid') : uuid = uuid' := by
  have lists := congrArg String.toList h
  simp only [readinessRecord, String.toList_append] at lists
  have same := (List.append_inj' lists (by rw [uuid.length_text, uuid'.length_text])).2
  cases uuid
  cases uuid'
  simpa using String.toList_injective same

theorem readReadiness_ok {text read : String} {identity : FileIdentity}
    (h : readReadiness text identity = .ok read) : read = text := by
  unfold readReadiness at h
  split at h
  · cases h
  · split at h
    · cases h
      rfl
    · cases h

/-! ## The files -/

structure PreparedStore where
  identity : FileIdentity
  generation : String
  /-- The Store keeps the primary lock. -/
  primary : Bool
  deriving DecidableEq, Repr

structure Connection where
  readOnly : Bool
  file : FileIdentity
  deriving DecidableEq, Repr

/-- What a call found or did.  A lock found in use is told with the primary Store that was alive
at that moment, if one was. -/
inductive Moment where
  | contended (k : Holder) (primary : Option (Holder × PreparedStore))
  | probed (k : Holder) (primary : Option (Holder × PreparedStore))
  | issued (k : Holder) (uuid : Uuid) (generation : String)
  | identified (k : Holder) (identity : FileIdentity)
  | connected (k : Holder) (connection : Connection)
  | bound (k : Holder) (store : PreparedStore)
  | opened (k : Holder) (store : PreparedStore) (connection : Connection)
  deriving DecidableEq

def Moment.holder : Moment → Holder
  | .contended k _ => k
  | .probed k _ => k
  | .issued k _ _ => k
  | .identified k _ => k
  | .connected k _ => k
  | .bound k _ => k
  | .opened k _ _ => k

/-- `.initialize.lock`, `.ready.lock` and `.owner.lock` -/
inductive LockFile where
  | gate
  | lease
  | owner
  deriving DecidableEq, Repr

/-- The files beside the database path, who is migrating and which Stores are alive.  The log
tells what the calls found, in order. -/
structure StoreFiles where
  locks : LockFile → FileLock Holder
  readiness : String
  database : FileIdentity
  migrating : Option Holder
  stores : Holder → Option PreparedStore
  log : List Moment

namespace StoreFiles

variable (s : StoreFiles) (k : Holder)

def setLock (file : LockFile) (lock : FileLock Holder) : StoreFiles :=
  { s with locks := Function.update s.locks file lock }

def record (moment : Moment) : StoreFiles :=
  { s with log := s.log ++ [moment] }

def setStore (store : Option PreparedStore) : StoreFiles :=
  { s with stores := Function.update s.stores k store }

/-- The live Store that holds the primary lock. -/
def livePrimary : Option (Holder × PreparedStore) :=
  (s.locks .owner).exclusive.bind fun j =>
    match s.stores j with
    | some store => if store.primary then some (j, store) else none
    | none => none

/-- Dropping a file gives its lock back. -/
def unlock (file : LockFile) : StoreFiles :=
  s.setLock file ((s.locks file).unlock k)

/-- The operating system closes every file of a call that ends. -/
def releaseAll : StoreFiles :=
  { s with
    locks := fun file => (s.locks file).unlock k
    migrating := if s.migrating = some k then none else s.migrating
    stores := Function.update s.stores k none }

end StoreFiles

/-! ## Operations -/

/-- What the environment answers a step. -/
structure Answer where
  /-- The operation of the step reports this error. -/
  fails : Option StoreError
  /-- What `Uuid::new_v4` draws. -/
  uuid : Uuid
  /-- How far a write gets at first. -/
  written : Nat

abbrev StoreStep := Process StoreFiles Answer StoreError

/-- An operation that the environment may refuse. -/
def call {α : Type} (run : StoreFiles → Except StoreError α × StoreFiles) : StoreStep α :=
  .atomic fun answer s =>
    match answer.fails with
    | some e => (.error e, s)
    | none => run s

section Operations

variable (k : Holder)

def canonicalStorePath : StoreStep Unit :=
  call fun s => (.ok (), s)

/-- Opens a lock file, which takes no lock. -/
def lockFile : StoreStep Unit :=
  call fun s => (.ok (), s)

def exclusive (file : LockFile) : StoreStep Unit :=
  call fun s =>
    match (s.locks file).tryLock k with
    | some lock => (.ok (), s.setLock file lock)
    | none => (.error busy, s)

def shared (file : LockFile) : StoreStep Unit :=
  call fun s =>
    match (s.locks file).tryLockShared k with
    | some lock => (.ok (), s.setLock file lock)
    | none => (.error busy, s)

/-- The end of a lock file's scope. -/
def close (file : LockFile) : StoreStep Unit :=
  .atomic fun _ s => (.ok (), s.unlock k file)

def closeAll : List LockFile → StoreStep Unit
  | [] => return ()
  | file :: rest => do
    close k file
    closeAll rest

/-- An error closes the files in this order. -/
def guarding {α : Type} (files : List LockFile) (body : StoreStep α) : StoreStep α := do
  match ← body.attempt with
  | .ok a => return a
  | .error e => do
    closeAll k files
    Process.fail e

/-- `primary.try_lock()` of a preparer: whether the lock was free. -/
def tryOwner : StoreStep Bool :=
  call fun s =>
    match (s.locks .owner).tryLock k with
    | some lock => (.ok true, s.setLock .owner lock)
    | none => (.ok false, s.record (.contended k s.livePrimary))

def primaryIsLive : StoreStep Bool :=
  call fun s =>
    match (s.locks .owner).tryLockShared k with
    | some lock => (.ok false, s.setLock .owner lock)
    | none => (.ok true, s.record (.probed k s.livePrimary))

def requirePrimary : StoreStep Unit := do
  lockFile
  if ← primaryIsLive k then
    return ()
  else
    -- the probe itself held the lock until here
    close k .owner
    Process.fail .unavailable

def fileIdentity : StoreStep FileIdentity :=
  call fun s => (.ok s.database, s.record (.identified k s.database))

def readRecord (identity : FileIdentity) : StoreStep String :=
  call fun s => (readReadiness s.readiness identity, s)

/-- `readiness_record`.  An identifier is drawn only once. -/
def drawRecord (identity : FileIdentity) : StoreStep String :=
  .step
    (fun answer s =>
      if s.log.any fun | .issued _ uuid _ => uuid == answer.uuid | _ => false then
        none
      else
        some (s.record (.issued k answer.uuid (readinessRecord identity answer.uuid))))
    fun answer _ => .done (.ok (readinessRecord identity answer.uuid))

/-- `set_len(0)`, `write_all` and `sync_data`.  The write may stop anywhere. -/
def writeRecord (text : String) : StoreStep Unit := do
  call fun s => (.ok (), { s with readiness := "" })
  .atomic fun answer s =>
    (match answer.fails with
      | some e => .error e
      | none => .ok (),
      { s with readiness := String.ofList (text.toList.take answer.written) })
  .atomic fun _ s => (.ok (), { s with readiness := text })
  call fun s => (.ok (), s)

variable (sqliteVersion : Nat)

/-- `initialize_connection`: the migration lasts from its first step to its last. -/
def initializeConnection : StoreStep Unit := do
  Process.lift (fixedRuntime sqliteVersion)
  canonicalStorePath
  .atomic fun _ s => (.ok (), { s with migrating := some k })
  .atomic fun answer s =>
    (match answer.fails with
      | some e => .error e
      | none => .ok (),
      { s with migrating := none })

/-- Opens the database that stands at the path now and checks it. -/
def operationalConnection (readOnly : Bool) : StoreStep Connection := do
  Process.lift (fixedRuntime sqliteVersion)
  let connection ← call fun s =>
    let connection := ⟨readOnly, s.database⟩
    (.ok connection, s.record (.connected k connection))
  call fun s => (.ok (), s)
  return connection

/-- `Store::bind` -/
def bind (identity : FileIdentity) (generation : String) (primary : Bool) :
    StoreStep PreparedStore := do
  if (← fileIdentity k) ≠ identity then
    Process.fail (.notInitialized "Store changed during initialization")
  else
    .atomic fun _ s =>
      (.ok ⟨identity, generation, primary⟩,
        (s.setStore k (some ⟨identity, generation, primary⟩)).record
          (.bound k ⟨identity, generation, primary⟩))

/-! ## Preparation -/

/-- The primary's branch: consumers of a departed primary keep it out. -/
def prepareOwned : StoreStep String := do
  exclusive k .lease
  initializeConnection k sqliteVersion
  let _ ← operationalConnection k sqliteVersion false
  let identity ← fileIdentity k
  let generation ← drawRecord k identity
  writeRecord generation
  call fun s => (.ok (), s.unlock k .lease)
  shared k .lease
  return generation

/-- The branch of a preparer that found the primary lock in use. -/
def prepareSecondary (authority : Bool) : StoreStep String := do
  if authority then
    Process.fail busy
  else
    shared k .lease
    let _ ← operationalConnection k sqliteVersion false
    let identity ← fileIdentity k
    readRecord identity

/-- `StoreBootstrap::prepare`, up to the drop of the gate. -/
def prepare (authority : Bool) : StoreStep PreparedStore := do
  lockFile
  lockFile
  let (generation, primary) ← guarding k [.lease, .owner] do
    if ← tryOwner k then
      let generation ← prepareOwned k sqliteVersion
      return (generation, true)
    else
      let generation ← prepareSecondary k sqliteVersion authority
      return (generation, false)
  guarding k [.owner, .lease] do
    let identity ← fileIdentity k
    bind k identity generation primary

/-- `Store::begin` -/
def begin : StoreStep Unit := do
  canonicalStorePath
  lockFile
  exclusive k .gate

/-- `Store::initialize`, and `begin` followed by `initialize_with_authority`: the application
takes its authority under the gate. -/
def initializeStore (authority : Bool) : StoreStep PreparedStore := do
  begin k
  Process.releasing
    (do
      if authority then
        call fun s => (.ok (), s)
      prepare k sqliteVersion authority)
    (·.unlock k .gate)

/-! ## Attachment -/

def attachUnderGate : StoreStep PreparedStore := do
  requirePrimary k
  lockFile
  guarding k [.lease] do
    shared k .lease
    let identity ← fileIdentity k
    let generation ← readRecord identity
    let _ ← operationalConnection k sqliteVersion true
    requirePrimary k
    bind k identity generation false

def attach : StoreStep PreparedStore := do
  canonicalStorePath
  lockFile
  shared k .gate
  (attachUnderGate k sqliteVersion).releasing (·.unlock k .gate)

/-- One turn of the loop in `attach_with_deadline`. -/
def askGate (refused : StoreError → StoreStep PreparedStore) : StoreStep PreparedStore := do
  match ← (shared k .gate).attempt with
  | .ok () => (attachUnderGate k sqliteVersion).releasing (·.unlock k .gate)
  | .error e => refused e

/-- The loop asks again this often before the deadline. -/
def attachPolling : Nat → StoreStep PreparedStore
  | 0 => askGate k sqliteVersion Process.fail
  | polls + 1 =>
    askGate k sqliteVersion fun e =>
      if isContention e then attachPolling polls else Process.fail e

def attachWait (polls : Nat) : StoreStep PreparedStore := do
  canonicalStorePath
  lockFile
  attachPolling k sqliteVersion polls

/-! ## Use -/

def checkReady (store : PreparedStore) : StoreStep Unit := do
  lockFile
  shared k .gate
  Process.releasing
    (do
      requirePrimary k
      lockFile
      if (← readRecord store.identity) ≠ store.generation then
        Process.fail (.notInitialized "Store owner generation changed")
      else if (← fileIdentity k) ≠ store.identity then
        Process.fail (.notInitialized "Prepared store file was replaced")
      else
        return ())
    (·.unlock k .gate)

/-- `Store::open`.  The last step only notes the connection that is handed out. -/
def openStore (store : PreparedStore) (readOnly : Bool) : StoreStep Connection := do
  checkReady k store
  let connection ← operationalConnection k sqliteVersion readOnly
  checkReady k store
  .atomic fun _ s => (.ok connection, s.record (.opened k store connection))

inductive Use where
  | checkReady
  | reader
  | writer
  deriving DecidableEq, Repr

def useStore (store : PreparedStore) : Use → StoreStep Unit
  | .checkReady => checkReady k store
  | .reader => do
    let _ ← openStore k sqliteVersion store true
    return ()
  | .writer => do
    let _ ← openStore k sqliteVersion store false
    return ()

/-- The uses of a Store, which goes on after one that failed. -/
def useAll (store : PreparedStore) : List Use → StoreStep Unit
  | [] => return ()
  | use :: rest => do
    let _ ← (useStore k sqliteVersion store use).attempt
    useAll store rest

/-- The last clone of the Store is dropped: first its lease, then its primary lock. -/
def dropStore (store : PreparedStore) : StoreStep Unit := do
  .atomic fun _ s =>
    (.ok (), if store.primary then s.unlock k .lease else (s.unlock k .lease).setStore k none)
  .atomic fun _ s => (.ok (), (s.unlock k .owner).setStore k none)

end Operations

/-! ## The system -/

inductive Request where
  | prepare (authority : Bool) (uses : List Use)
  | attach (uses : List Use)
  | attachWait (polls : Nat) (uses : List Use)
  /-- Another thread uses a clone of a Store. -/
  | share (store : PreparedStore) (uses : List Use)
  /-- Another file takes the place of the database. -/
  | replace (database : FileIdentity)

def program (sqliteVersion : Nat) : Request → Holder → StoreStep Unit
  | .prepare authority uses, k => do
    let store ← initializeStore k sqliteVersion authority
    useAll k sqliteVersion store uses
    dropStore k store
  | .attach uses, k => do
    let store ← attach k sqliteVersion
    useAll k sqliteVersion store uses
    dropStore k store
  | .attachWait polls uses, k => do
    let store ← attachWait k sqliteVersion polls
    useAll k sqliteVersion store uses
    dropStore k store
  | .share store uses, k => useAll k sqliteVersion store uses
  | .replace database, _ => .atomic fun _ s => (.ok (), { s with database := database })

def calls (sqliteVersion : Nat) : Processes StoreFiles Answer StoreError Unit Request Holder where
  program := program sqliteVersion
  release k s := s.releaseAll k

/-- Any files, and nobody at work. -/
structure AtRest (s : StoreFiles) : Prop where
  locks : ∀ file, s.locks file = .unlocked
  migrating : s.migrating = none
  stores : ∀ k, s.stores k = none
  log : s.log = []

end DocumentSummarizer.Pipeline.Lifecycle
