import DocumentSummarizer.Connect.PackageContracts
import DocumentSummarizer.Library.DurableProgram

/-! # The package store

The package root as a durable state.  A write creates a temporary file and
renames it into place: two steps, with a crash point after each.
-/

namespace DocumentSummarizer.Connect

open Library

/-- The temporary files a killed writer can leave behind, by the generation in their name. -/
inductive Temporary where
  | quiesce (generation : String)
  | record (generation : String)
  | removalReceipt (generation : String)
  | installReceipt (generation : String)
  | controller (generation : String)
  deriving DecidableEq, Repr

structure PackageStore where
  quiesce : Option QuiesceIntent
  record : Option PackageRecord
  removalReceipt : Option RemovalReceipt
  installReceipt : Option InstallReceipt
  /-- The generations that have a controller executable. -/
  controllers : List String
  /-- The quarantined legacy executables: generation and SHA-256 of the file. -/
  quarantines : List (String × String)
  temporaries : List Temporary
  deriving DecidableEq, Repr

namespace PackageStore

def empty : PackageStore where
  quiesce := none
  record := none
  removalReceipt := none
  installReceipt := none
  controllers := []
  quarantines := []
  temporaries := []

def draft (store : PackageStore) (temporary : Temporary) : PackageStore :=
  { store with temporaries := temporary :: store.temporaries }

def dropDraft (store : PackageStore) (temporary : Temporary) : PackageStore :=
  { store with temporaries := store.temporaries.erase temporary }

def withRecord (store : PackageStore) (record : PackageRecord) : PackageStore :=
  { store with record := some record }

@[simp] theorem withRecord_withRecord (store : PackageStore) (record other : PackageRecord) :
    (store.withRecord record).withRecord other = store.withRecord other :=
  rfl

theorem withRecord_self {store : PackageStore} {record : PackageRecord}
    (found : store.record = some record) : store.withRecord record = store := by
  cases store
  cases found
  rfl

@[simp] theorem dropDraft_draft (store : PackageStore) (temporary : Temporary) :
    (store.draft temporary).dropDraft temporary = store := by
  simp [draft, dropDraft]

end PackageStore

abbrev Program := Durable PackageStore PackageControlError

/-- A guard: `Err(PackageControlError::Conflict)` unless the condition holds. -/
def ensure (condition : Bool) : Program Unit :=
  if condition then pure () else .fail .conflict

/-- `read_json_record`: a file outside the size bound is refused. -/
def readSized {α : Type} (bytes : α → Nat) : Option α → Program (Option α)
  | none => pure none
  | some value =>
    if bytes value = 0 ∨ maxRecordBytes < bytes value then .fail .conflict else pure (some value)

/-- Writes a file through its temporary.  `create_new` refuses a leftover temporary, and the
error path removes it. -/
def writeThrough (temporary : Temporary) (install : PackageStore → PackageStore) :
    Program Unit := do
  let store ← Durable.read
  if temporary ∈ store.temporaries then
    Durable.commit (·.dropDraft temporary)
    Durable.fail .storage
  else
    Durable.commit (·.draft temporary)
    Durable.commit fun store => install (store.dropDraft temporary)

/-- `ok_or(PackageControlError::Conflict)` -/
def orConflict {α : Type} : Option α → Program α
  | some value => pure value
  | none => .fail .conflict

/-- `store.write(&record)` -/
def PackageRecord.write (record : PackageRecord) : Program Unit :=
  writeThrough (.record record.generation) (·.withRecord record)

namespace Platform

variable (platform : Platform)

def read : Program (Option PackageRecord) := do
  let store ← Durable.read
  readSized platform.recordBytes store.record

def readQuiesce : Program (Option QuiesceIntent) := do
  let store ← Durable.read
  match store.quiesce with
  | none => return none
  | some intent =>
    ensure (intent.readable platform)
    return some intent

def readRemovalReceipt : Program (Option RemovalReceipt) := do
  let store ← Durable.read
  readSized platform.removalReceiptBytes store.removalReceipt

def readInstallReceipt : Program (Option InstallReceipt) := do
  let store ← Durable.read
  readSized platform.installReceiptBytes store.installReceipt

def writeQuiesce (intent : QuiesceIntent) : Program Unit := do
  ensure (intent.encodable platform)
  writeThrough (.quiesce intent.generation) fun store => { store with quiesce := some intent }

def clearQuiesce (generation : String) : Program Unit := do
  let current ← orConflict (← platform.readQuiesce)
  ensure (current.generation == generation)
  Durable.commit fun store => { store with quiesce := none }

def clear (generation : String) : Program Unit := do
  let current ← orConflict (← platform.read)
  ensure (current.generation == generation)
  Durable.commit fun store => { store with record := none }

end Platform

/-! ## What the primitives meet -/

section Primitives

variable {store : PackageStore} {failed : PackageControlError → PackageStore → Prop}
  {stopped : PackageStore → Prop} {α : Type}

variable {post : Unit → PackageStore → Prop}

theorem meets_ensure {condition : Bool} :
    Durable.Meets (ensure condition) store post failed stopped ↔
      (condition = true → post () store) ∧ (condition = false → failed .conflict store) := by
  cases condition <;> simp [ensure]

theorem meets_orConflict {value : Option α} {post : α → PackageStore → Prop} :
    Durable.Meets (orConflict value) store post failed stopped ↔
      (∀ a, value = some a → post a store) ∧ (value = none → failed .conflict store) := by
  cases value <;> simp [orConflict]

/-- The file is absent or within the size bound. -/
def Sized (bytes : α → Nat) (value : Option α) : Prop :=
  ∀ a, value = some a → 0 < bytes a ∧ bytes a ≤ maxRecordBytes

theorem meets_readSized {bytes : α → Nat} {value : Option α}
    {post : Option α → PackageStore → Prop} (sized : Sized bytes value) :
    Durable.Meets (readSized bytes value) store post failed stopped ↔ post value store := by
  cases value with
  | none => simp [readSized]
  | some a =>
      obtain ⟨positive, bounded⟩ := sized a rfl
      have inside : ¬ (bytes a = 0 ∨ maxRecordBytes < bytes a) := by omega
      simp only [readSized, inside, if_false, Durable.meets_pure]

theorem meets_writeThrough {temporary : Temporary} {install : PackageStore → PackageStore}
    (absent : temporary ∉ store.temporaries) :
    Durable.Meets (writeThrough temporary install) store post failed stopped ↔
      stopped (store.draft temporary) ∧ stopped (install store) ∧ post () (install store) := by
  simp only [writeThrough, Durable.meets_bind, Durable.meets_read, absent, if_false,
    Durable.meets_commit, PackageStore.dropDraft_draft]

theorem meets_write {record : PackageRecord}
    (absent : .record record.generation ∉ store.temporaries) :
    Durable.Meets record.write store post failed stopped ↔
      stopped (store.draft (.record record.generation)) ∧ stopped (store.withRecord record) ∧
        post () (store.withRecord record) :=
  meets_writeThrough absent

theorem writeThrough_refused {temporary : Temporary} {install : PackageStore → PackageStore}
    (left : temporary ∈ store.temporaries) :
    Durable.Meets (writeThrough temporary install) store post failed stopped ↔
      stopped (store.dropDraft temporary) ∧ failed .storage (store.dropDraft temporary) := by
  simp only [writeThrough, Durable.meets_bind, Durable.meets_read, left, if_true,
    Durable.meets_commit, Durable.meets_fail]

variable {platform : Platform}

theorem meets_read {post : Option PackageRecord → PackageStore → Prop}
    (sized : Sized platform.recordBytes store.record) :
    Durable.Meets platform.read store post failed stopped ↔ post store.record store := by
  simp only [Platform.read, Durable.meets_bind, Durable.meets_read, meets_readSized sized]

theorem meets_readRemovalReceipt {post : Option RemovalReceipt → PackageStore → Prop}
    (sized : Sized platform.removalReceiptBytes store.removalReceipt) :
    Durable.Meets platform.readRemovalReceipt store post failed stopped ↔
      post store.removalReceipt store := by
  simp only [Platform.readRemovalReceipt, Durable.meets_bind, Durable.meets_read,
    meets_readSized sized]

theorem meets_readInstallReceipt {post : Option InstallReceipt → PackageStore → Prop}
    (sized : Sized platform.installReceiptBytes store.installReceipt) :
    Durable.Meets platform.readInstallReceipt store post failed stopped ↔
      post store.installReceipt store := by
  simp only [Platform.readInstallReceipt, Durable.meets_bind, Durable.meets_read,
    meets_readSized sized]

theorem meets_readQuiesce {post : Option QuiesceIntent → PackageStore → Prop}
    (readable : ∀ intent, store.quiesce = some intent → intent.readable platform = true) :
    Durable.Meets platform.readQuiesce store post failed stopped ↔ post store.quiesce store := by
  simp only [Platform.readQuiesce, Durable.meets_bind, Durable.meets_read]
  cases found : store.quiesce with
  | none => simp only [Durable.meets_pure]
  | some intent =>
      simp only [Durable.meets_bind, meets_ensure, readable intent found, Durable.meets_pure,
        Bool.true_eq_false, false_implies, and_true, true_implies]

theorem meets_clearQuiesce {intent : QuiesceIntent}
    (found : store.quiesce = some intent) (readable : intent.readable platform = true) :
    Durable.Meets (platform.clearQuiesce intent.generation) store post failed stopped ↔
      stopped { store with quiesce := none } ∧ post () { store with quiesce := none } := by
  have all : ∀ other, store.quiesce = some other → other.readable platform = true := by
    intro other same
    rw [found] at same
    obtain rfl := Option.some.inj same
    exact readable
  simp only [Platform.clearQuiesce, Durable.meets_bind, meets_readQuiesce all, found,
    orConflict, Durable.meets_pure, meets_ensure, beq_self_eq_true, Bool.true_eq_false,
    false_implies, and_true, true_implies, Durable.meets_commit]

theorem meets_clear {record : PackageRecord}
    (found : store.record = some record) (sized : Sized platform.recordBytes (some record)) :
    Durable.Meets (platform.clear record.generation) store post failed stopped ↔
      stopped { store with record := none } ∧ post () { store with record := none } := by
  have all : Sized platform.recordBytes store.record := found ▸ sized
  simp only [Platform.clear, Durable.meets_bind, meets_read all, found, orConflict,
    Durable.meets_pure, meets_ensure, beq_self_eq_true, Bool.true_eq_false, false_implies,
    and_true, true_implies, Durable.meets_commit]

end Primitives

end DocumentSummarizer.Connect
