import Mathlib.Data.List.Nodup
import Mathlib.Data.List.Pairwise
import DocumentSummarizer.Pipeline.StoreLifecycle

/-! # Ownership of the store

A call leaves the locks, the Store and the moments of every other call alone, and
the readiness record too while that call holds the gate.  Whoever owns the
primary lock either holds the gate or has bound the Store whose generation the
record names.
-/

namespace DocumentSummarizer.Pipeline.Lifecycle

open Library
open Library.FileLock (Mode)

/-! ## What a call holds -/

structure Holding where
  gate : Mode
  lease : Mode
  owner : Mode
  store : Option PreparedStore
  migrating : Bool
  deriving DecidableEq

namespace Holding

def idle : Holding :=
  ⟨.free, .free, .free, none, false⟩

def lock (h : Holding) : LockFile → Mode
  | .gate => h.gate
  | .lease => h.lease
  | .owner => h.owner

def setLock (h : Holding) (file : LockFile) (mode : Mode) : Holding :=
  match file with
  | .gate => { h with gate := mode }
  | .lease => { h with lease := mode }
  | .owner => { h with owner := mode }

/-- What a live Store keeps. -/
def live (store : PreparedStore) : Holding :=
  ⟨.free, .shared, if store.primary then .exclusive else .free, some store, false⟩

@[simp] theorem setLock_lock (h : Holding) (file : LockFile) :
    h.setLock file (h.lock file) = h := by
  cases file <;> rfl

/-- The owner of the primary lock holds the gate or a primary Store, and a migration holds all
three locks and no Store. -/
structure Sound (h : Holding) : Prop where
  primary : ∀ store, h.store = some store → store.primary = true → h.owner = .exclusive
  attached : ∀ store, h.store = some store → store.primary = false → h.lease = .shared
  owner_exclusive : h.owner = .exclusive →
    h.gate = .exclusive ∨ ∃ store, h.store = some store ∧ store.primary = true
  owner_shared : h.owner = .shared → h.gate = .shared
  migrating : h.migrating = true →
    h.gate = .exclusive ∧ h.lease = .exclusive ∧ h.owner = .exclusive ∧ h.store = none

end Holding

namespace StoreFiles

variable {s : StoreFiles} {j k : Holder}

def holding (s : StoreFiles) (k : Holder) : Holding where
  gate := (s.locks .gate).mode k
  lease := (s.locks .lease).mode k
  owner := (s.locks .owner).mode k
  store := s.stores k
  migrating := s.migrating == some k

@[simp] theorem holding_record (moment : Moment) :
    (s.record moment).holding k = s.holding k := rfl

@[simp] theorem holding_lock (file : LockFile) :
    (s.holding k).lock file = (s.locks file).mode k := by
  cases file <;> rfl

theorem holding_setLock (file : LockFile) (lock : FileLock Holder) :
    (s.setLock file lock).holding j = (s.holding j).setLock file (lock.mode j) := by
  cases file <;> simp [StoreFiles.setLock, holding, Holding.setLock]

theorem holding_unlock_self (file : LockFile) :
    (s.unlock k file).holding k = (s.holding k).setLock file .free := by
  rw [StoreFiles.unlock, holding_setLock, FileLock.unlock_mode, if_pos rfl]

theorem holding_unlock_other (file : LockFile) (other : j ≠ k) :
    (s.unlock k file).holding j = s.holding j := by
  rw [StoreFiles.unlock, holding_setLock, FileLock.unlock_mode, if_neg other]
  conv_rhs => rw [← Holding.setLock_lock (s.holding j) file, holding_lock]

theorem holding_setStore_self (store : Option PreparedStore) :
    (s.setStore k store).holding k = { s.holding k with store := store } := by
  simp [StoreFiles.setStore, holding]

theorem holding_setStore_other (store : Option PreparedStore) (other : j ≠ k) :
    (s.setStore k store).holding j = s.holding j := by
  simp [StoreFiles.setStore, holding, other]

theorem holding_releaseAll_self : (s.releaseAll k).holding k = Holding.idle := by
  simp only [StoreFiles.releaseAll, holding, FileLock.unlock_mode, if_true, Holding.idle,
    Function.update_self, Holding.mk.injEq, true_and]
  split
  · rfl
  · simpa using ‹_›

theorem holding_releaseAll_other (other : j ≠ k) :
    (s.releaseAll k).holding j = s.holding j := by
  simp only [StoreFiles.releaseAll, holding, FileLock.unlock_mode, if_neg other,
    Function.update_of_ne other, Holding.mk.injEq, true_and]
  split
  · rename_i migrates
    simp [migrates, Ne.symm other]
  · rfl

theorem holding_free (file : LockFile) (held : (s.holding k).lock file = .exclusive)
    (other : j ≠ k) : (s.holding j).lock file = .free := by
  rw [holding_lock] at held ⊢
  exact FileLock.mode_free_of_exclusive held other

/-- The moments of one call. -/
def own (s : StoreFiles) (k : Holder) : List Moment :=
  s.log.filter (·.holder = k)

theorem mem_own {moment : Moment} : moment ∈ s.own k ↔ moment ∈ s.log ∧ moment.holder = k := by
  simp [own]

end StoreFiles

/-! ## The log -/

/-- The primary Store that the lock was in use for. -/
def Moment.finding : Moment → Option (Option (Holder × PreparedStore))
  | .contended _ primary => some primary
  | .probed _ primary => some primary
  | _ => none

/-- The generation under which a primary Store begins. -/
def Moment.begins : Moment → Option String
  | .bound _ store => if store.primary then some store.generation else none
  | _ => none

/-- A primary Store that was bound, together with its holder. -/
def Begun (log : List Moment) (p : Holder × PreparedStore) : Prop :=
  .bound p.1 p.2 ∈ log ∧ p.2.primary = true

/-- The moments of a call that met a primary, and looked at no lock since. -/
inductive Met (k : Holder) (p : Holder × PreparedStore) : List Moment → Prop where
  | probed : Met k p [.probed k (some p)]
  | contended (connection) : Met k p [.contended k (some p), .connected k connection]
  | identified {moments} (met : Met k p moments) (identity) :
      Met k p (moments ++ [.identified k identity])

/-- The moments around a connection: the same primary before and after it, and the same file. -/
def window (k : Holder) (p : Holder × PreparedStore) (identity : FileIdentity)
    (connection : Connection) : List Moment :=
  [.probed k (some p), .identified k identity, .connected k connection, .probed k (some p),
    .identified k identity]

/-- What may be added to the log. -/
inductive Moment.Follows (log : List Moment) : Moment → Prop where
  | contended {k p} (begun : Begun log p) : Follows log (.contended k (some p))
  | probed {k p} (begun : Begun log p) : Follows log (.probed k (some p))
  | issued {k uuid} (identity) (fresh : ∀ j generation, .issued j uuid generation ∉ log) :
      Follows log (.issued k uuid (readinessRecord identity uuid))
  | identified {k identity} : Follows log (.identified k identity)
  | connected {k connection} : Follows log (.connected k connection)
  | primary {k store uuid} (owned : store.primary = true)
      (issued : .issued k uuid store.generation ∈ log)
      (first : ∀ store', .bound k store' ∈ log → store'.generation ≠ store.generation) :
      Follows log (.bound k store)
  | attached {k store p front moments} (consumer : store.primary = false)
      (met : Met k p moments) (own : log.filter (·.holder = k) = front ++ moments)
      (generation : p.2.generation = store.generation) : Follows log (.bound k store)
  | opened {k store connection p front} (generation : p.2.generation = store.generation)
      (own : log.filter (·.holder = k) = front ++ window k p store.identity connection) :
      Follows log (.opened k store connection)

theorem Met.found {k : Holder} {p : Holder × PreparedStore} {moments : List Moment}
    (met : Met k p moments) : ∃ moment ∈ moments, moment.finding = some (some p) := by
  induction met with
  | probed => exact ⟨_, List.mem_singleton.mpr rfl, rfl⟩
  | contended connection => exact ⟨_, List.mem_cons_self, rfl⟩
  | identified met identity ih =>
      obtain ⟨moment, mem, finding⟩ := ih
      exact ⟨moment, List.mem_append_left _ mem, finding⟩

/-- A log that grew in this way. -/
inductive Faithful : List Moment → Prop where
  | nil : Faithful []
  | snoc {log moment} (before : Faithful log) (follows : moment.Follows log) :
      Faithful (log ++ [moment])

namespace Faithful

variable {log : List Moment}

section

variable (h : Faithful log)

include h

/-- Every moment followed the ones before it. -/
theorem followed {moment : Moment} (mem : moment ∈ log) :
    ∃ before after, log = before ++ moment :: after ∧ Faithful before ∧
      moment.Follows before := by
  induction h with
  | nil => cases mem
  | @snoc log last before follows ih =>
      rw [List.mem_append, List.mem_singleton] at mem
      cases mem with
      | inl mem =>
          obtain ⟨front, back, split, faithful, followed⟩ := ih mem
          exact ⟨front, back ++ [last], by simp [split], faithful, followed⟩
      | inr same =>
          subst same
          exact ⟨log, [], rfl, before, follows⟩

theorem begun_of_finding {moment : Moment} (mem : moment ∈ log)
    {primary : Option (Holder × PreparedStore)} (finding : moment.finding = some primary) :
    ∃ p, primary = some p ∧ Begun log p := by
  obtain ⟨before, after, split, -, follows⟩ := h.followed mem
  have weaken : ∀ p, Begun before p → Begun log p := by
    intro p begun
    rw [split]
    exact ⟨List.mem_append_left _ begun.1, begun.2⟩
  cases follows with
  | contended begun =>
      cases finding
      exact ⟨_, rfl, weaken _ begun⟩
  | probed begun =>
      cases finding
      exact ⟨_, rfl, weaken _ begun⟩
  | issued | identified | connected | primary | attached | opened => cases finding

theorem record_of_issued {k : Holder} {uuid : Uuid} {generation : String}
    (mem : .issued k uuid generation ∈ log) :
    ∃ identity, generation = readinessRecord identity uuid := by
  obtain ⟨_, _, _, _, follows⟩ := h.followed mem
  cases follows with
  | issued identity fresh => exact ⟨identity, rfl⟩

theorem issued_once {j k : Holder} {uuid : Uuid} {generation other : String}
    (left : .issued j uuid generation ∈ log) (right : .issued k uuid other ∈ log) : j = k := by
  induction h with
  | nil => cases left
  | @snoc log last before follows ih =>
      rw [List.mem_append, List.mem_singleton] at left right
      cases left with
      | inl left =>
          cases right with
          | inl right => exact ih left right
          | inr right =>
              subst right
              cases follows with
              | issued identity fresh => exact absurd left (fresh _ _)
      | inr left =>
          subst left
          cases right with
          | inl right =>
              cases follows with
              | issued identity fresh => exact absurd right (fresh _ _)
          | inr right => cases right; rfl

theorem drawer {j k : Holder} {uuid uuid' : Uuid} {generation : String}
    (left : .issued j uuid generation ∈ log) (right : .issued k uuid' generation ∈ log) :
    j = k := by
  obtain ⟨identity, record⟩ := h.record_of_issued left
  obtain ⟨identity', record'⟩ := h.record_of_issued right
  have same : uuid = uuid' := readinessRecord_inj (record.symm.trans record')
  subst same
  exact h.issued_once left right

theorem issued_of_begun {p : Holder × PreparedStore} (begun : Begun log p) :
    ∃ uuid, .issued p.1 uuid p.2.generation ∈ log := by
  obtain ⟨before, after, split, -, follows⟩ := h.followed begun.1
  cases follows with
  | @primary _ _ uuid owned issued first =>
      exact ⟨uuid, by rw [split]; exact List.mem_append_left _ issued⟩
  | attached consumer => simp [begun.2] at consumer

theorem issued_of_bound {k : Holder} {store : PreparedStore}
    (mem : .bound k store ∈ log) : ∃ j uuid, .issued j uuid store.generation ∈ log := by
  cases primary : store.primary with
  | true =>
      obtain ⟨uuid, issued⟩ := h.issued_of_begun (p := (k, store)) ⟨mem, primary⟩
      exact ⟨k, uuid, issued⟩
  | false =>
      obtain ⟨before, after, split, faithful, follows⟩ := h.followed mem
      cases follows with
      | primary owned => simp [primary] at owned
      | @attached _ _ p front moments consumer met own generation =>
          obtain ⟨moment, found, finding⟩ := met.found
          have seen : moment ∈ before.filter (·.holder = k) := by
            rw [own]
            exact List.mem_append_right _ found
          obtain ⟨q, same, begun⟩ :=
            faithful.begun_of_finding (List.mem_filter.mp seen).1 finding
          cases same
          obtain ⟨uuid, issued⟩ := faithful.issued_of_begun begun
          refine ⟨p.1, uuid, ?_⟩
          rw [split, ← generation]
          exact List.mem_append_left _ issued

theorem generations_nodup : (log.filterMap Moment.begins).Nodup := by
  induction h with
  | nil => exact List.nodup_nil
  | @snoc log last before follows ih =>
      cases begins : last.begins with
      | none => simpa [List.filterMap_append, begins] using ih
      | some generation =>
          simp only [List.filterMap_append, List.filterMap_cons, begins, List.filterMap_nil]
          rw [List.nodup_append]
          refine ⟨ih, List.nodup_singleton _, ?_⟩
          intro earlier mem again here same
          rw [List.mem_singleton] at here
          subst here same
          obtain ⟨moment, mem, again⟩ := List.mem_filterMap.mp mem
          cases follows with
          | @primary k store uuid owned issued first =>
              simp only [Moment.begins, owned, if_true, Option.some.injEq] at begins
              cases moment with
              | bound j store' =>
                  simp only [Moment.begins, Option.ite_none_right_eq_some,
                    Option.some.injEq] at again
                  obtain ⟨uuid', drawn⟩ := before.issued_of_begun (p := (j, store'))
                    ⟨mem, again.1⟩
                  rw [again.2, ← begins] at drawn
                  have mine : j = k := before.drawer drawn issued
                  subst mine
                  exact first store' mem (again.2.trans begins.symm)
              | contended | probed | issued | identified | connected | opened => cases again
          | attached consumer => simp [Moment.begins, consumer] at begins
          | contended | probed | issued | identified | connected | opened => cases begins

theorem begun_unique {p q : Holder × PreparedStore} (left : Begun log p)
    (right : Begun log q) (same : p.2.generation = q.2.generation) : p = q := by
  have apart := List.pairwise_filterMap.mp h.generations_nodup
  by_contra different
  have distinct : Moment.bound p.1 p.2 ≠ .bound q.1 q.2 := by
    intro equal
    injection equal with holder store
    exact different (Prod.ext holder store)
  have : Std.Symm fun a a' : Moment =>
      ∀ g, a.begins = some g → ∀ g', a'.begins = some g' → g ≠ g' :=
    ⟨fun _ _ unequal g first g' second => (unequal g' second g first).symm⟩
  exact apart.forall left.1 right.1 distinct _ (by simp [Moment.begins, left.2])
    _ (by simp [Moment.begins, right.2]) same

end

end Faithful

/-! ## The discipline -/

structure Invariant (s : StoreFiles) : Prop where
  holdings : ∀ k, (s.holding k).Sound
  readiness : ∀ k store, s.stores k = some store → store.primary = true →
    s.readiness = store.generation
  bound : ∀ k store, s.stores k = some store → .bound k store ∈ s.log
  log : Faithful s.log

/-- What the others leave alone for call `k`. -/
structure Frame (k : Holder) (s t : StoreFiles) : Prop where
  holding : t.holding k = s.holding k
  readiness : (s.holding k).gate ≠ .free → t.readiness = s.readiness
  log : ∃ new, t.log = s.log ++ new ∧ ∀ moment ∈ new, moment.holder ≠ k

def discipline : Discipline StoreFiles Holder where
  inv := Invariant
  frame := Frame
  change _ _ := True
  frame_refl k s := ⟨rfl, fun _ => rfl, [], by simp, nofun⟩
  frame_trans k s t u first second := by
    constructor
    · rw [second.holding, first.holding]
    · intro held
      rw [second.readiness (by rwa [first.holding]), first.readiness held]
    · obtain ⟨new, log, others⟩ := first.log
      obtain ⟨new', log', others'⟩ := second.log
      refine ⟨new ++ new', by rw [log', log, List.append_assoc], ?_⟩
      intro moment mem
      cases List.mem_append.mp mem with
      | inl mem => exact others moment mem
      | inr mem => exact others' moment mem

/-- What call `k` knows: its holding, the record while it holds the gate, its own moments. -/
structure Under (k : Holder) (h : Holding) (text : String) (own : List Moment)
    (s : StoreFiles) : Prop where
  holding : s.holding k = h
  readiness : h.gate ≠ .free → s.readiness = text
  own : s.own k = own

section Rules

variable {k : Holder} {h : Holding} {text : String} {own : List Moment} {s t u : StoreFiles}

theorem stable_under : discipline.Stable k (Under k h text own) := by
  intro s t inv frame under
  constructor
  · rw [frame.holding, under.holding]
  · intro held
    rw [frame.readiness (by rwa [under.holding]), under.readiness held]
  · obtain ⟨new, log, others⟩ := frame.log
    have none_mine : new.filter (·.holder = k) = [] :=
      List.filter_eq_nil_iff.mpr fun moment mem => by simpa using others moment mem
    rw [← under.own, StoreFiles.own, StoreFiles.own, log, List.filter_append, none_mine,
      List.append_nil]

theorem stable_holding {F : Holding → Prop} :
    discipline.Stable k fun s => F (s.holding k) := by
  intro s t inv frame held
  rw [frame.holding]
  exact held

theorem Under.forget (under : Under k h text own s) (free : h.gate = .free)
    {text' : String} : Under k h text' own s :=
  ⟨under.holding, fun held => absurd free held, under.own⟩

/-- Call `k` may take a step that changes no holding but its own. -/
theorem allows_of (inv : Invariant t) (others : ∀ j, j ≠ k → u.holding j = t.holding j)
    (readiness : u.readiness = t.readiness ∨
      (t.holding k).gate = .exclusive ∧ (t.holding k).owner = .exclusive)
    (log : u.log = t.log ∨ ∃ moment, moment.holder = k ∧ moment.Follows t.log ∧
      u.log = t.log ++ [moment])
    (sound : (u.holding k).Sound)
    (mine : ∀ store, u.stores k = some store →
      (store.primary = true → u.readiness = store.generation) ∧ .bound k store ∈ u.log) :
    discipline.Allows k t u where
  inv := by
    have grown : ∀ moment ∈ t.log, moment ∈ u.log := by
      intro moment mem
      rcases log with same | ⟨new, -, -, longer⟩
      · rwa [same]
      · rw [longer]
        exact List.mem_append_left _ mem
    have stores : ∀ j, j ≠ k → u.stores j = t.stores j :=
      fun j other => congrArg Holding.store (others j other)
    constructor
    · intro j
      by_cases same : j = k
      · subst same
        exact sound
      · rw [others j same]
        exact inv.holdings j
    · intro j store live primary
      by_cases same : j = k
      · subst same
        exact (mine store live).1 primary
      · rw [stores j same] at live
        cases readiness with
        | inl kept => rw [kept, inv.readiness j store live primary]
        | inr writes =>
            -- the writer is the only owner
            have owner := (inv.holdings j).primary store live primary
            have nobody := StoreFiles.holding_free .owner writes.2 same
            exact absurd (owner.symm.trans nobody) (by decide)
    · intro j store live
      by_cases same : j = k
      · subst same
        exact (mine store live).2
      · rw [stores j same] at live
        exact grown _ (inv.bound j store live)
    · rcases log with same | ⟨new, -, follows, longer⟩
      · rw [same]
        exact inv.log
      · rw [longer]
        exact .snoc inv.log follows
  frame := by
    intro j other
    constructor
    · exact others j other
    · intro held
      cases readiness with
      | inl kept => exact kept
      | inr writes =>
          exact absurd (StoreFiles.holding_free .gate writes.1 other) held
    · rcases log with same | ⟨new, mine, -, longer⟩
      · exact ⟨[], by simp [same], nofun⟩
      · refine ⟨[new], longer, ?_⟩
        intro moment mem
        rw [List.mem_singleton] at mem
        rw [mem, mine]
        exact other.symm
  change := trivial

theorem allows_nothing (inv : Invariant t) : discipline.Allows k t t :=
  allows_of inv (fun _ _ => rfl) (.inl rfl) (.inl rfl) (inv.holdings k) fun store live =>
    ⟨inv.readiness k store live, inv.bound k store live⟩

theorem allows_record (inv : Invariant t) {moment : Moment} (mine : moment.holder = k)
    (follows : moment.Follows t.log) : discipline.Allows k t (t.record moment) :=
  allows_of inv (fun _ _ => rfl) (.inl rfl) (.inr ⟨moment, mine, follows, rfl⟩)
    (inv.holdings k) fun store live =>
      ⟨inv.readiness k store live, List.mem_append_left _ (inv.bound k store live)⟩

theorem allows_setLock (inv : Invariant t) {file : LockFile} {lock : FileLock Holder}
    (others : ∀ j, j ≠ k → lock.mode j = (t.locks file).mode j)
    (sound : ((t.holding k).setLock file (lock.mode k)).Sound) :
    discipline.Allows k t (t.setLock file lock) := by
  apply allows_of inv
  · intro j other
    rw [StoreFiles.holding_setLock, others j other, ← StoreFiles.holding_lock,
      Holding.setLock_lock]
  · exact .inl rfl
  · exact .inl rfl
  · rwa [StoreFiles.holding_setLock]
  · exact fun store live => ⟨inv.readiness k store live, inv.bound k store live⟩

theorem Under.record (under : Under k h text own s) {moment : Moment}
    (mine : moment.holder = k) : Under k h text (own ++ [moment]) (s.record moment) where
  holding := under.holding
  readiness := under.readiness
  own := by
    rw [← under.own]
    simp [StoreFiles.own, StoreFiles.record, List.filter_append, mine]

theorem Under.setLock (under : Under k h text own s) {file : LockFile}
    {lock : FileLock Holder} {mode : Mode} (taken : lock.mode k = mode)
    (gate : h.gate = .free → (h.setLock file mode).gate ≠ .free → s.readiness = text) :
    Under k (h.setLock file mode) text own (s.setLock file lock) where
  holding := by rw [StoreFiles.holding_setLock, under.holding, taken]
  readiness := by
    intro held
    by_cases free : h.gate = .free
    · exact gate free held
    · exact under.readiness free
  own := under.own

end Rules

end DocumentSummarizer.Pipeline.Lifecycle
