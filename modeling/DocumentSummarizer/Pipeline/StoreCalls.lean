import DocumentSummarizer.Pipeline.StoreOwnership

/-! # The calls keep the discipline

Every operation of the lifecycle is followed from what its call holds to what it
holds afterwards, together with the moments it leaves in the log.
-/

namespace DocumentSummarizer.Pipeline.Lifecycle

open Library
open Library.FileLock (Mode)

section Steps

variable {α : Type} {k : Holder} {h : Holding} {text : String} {own : List Moment}
  {s t : StoreFiles} {file : LockFile} {F : Holding → Prop}

/-- An operation either is refused and changes nothing, or does what `run` does. -/
theorem sat_call {run : StoreFiles → Except StoreError α × StoreFiles}
    {post : α → StoreFiles → Prop} (known : Under k h text own s) (refused : F h)
    (stable : ∀ a, discipline.Stable k (post a))
    (moves : ∀ t, Invariant t → Under k h text own t → discipline.Allows k t (run t).2 ∧
      match (run t).1 with
      | .ok a => post a (run t).2
      | .error _ => F ((run t).2.holding k)) :
    discipline.Sat k (call run) post (fun _ t => F (t.holding k)) s := by
  apply Discipline.sat_atomic stable_under known stable fun _ => stable_holding
  intro answer t inv under
  cases answer.fails with
  | some e =>
      refine ⟨allows_nothing inv, ?_⟩
      change F (t.holding k)
      rwa [under.holding]
  | none =>
      obtain ⟨allowed, ended⟩ := moves t inv under
      refine ⟨allowed, ?_⟩
      dsimp only
      cases outcome : (run t).1 with
      | ok a =>
          rw [outcome] at ended
          exact ended
      | error e =>
          rw [outcome] at ended
          exact ended

theorem sat_look (known : Under k h text own s) (refused : F h) :
    discipline.Sat k (call fun s => (.ok (), s)) (fun _ => Under k h text own)
      (fun _ t => F (t.holding k)) s :=
  sat_call known refused (fun _ => stable_under) fun _ inv under => ⟨allows_nothing inv, under⟩

/-- Taking a lock: the record is new to a call that had not held the gate. -/
theorem Under.taken (under : Under k h text own t) {lock : FileLock Holder} {mode : Mode}
    (taken : lock.mode k = mode) :
    ∃ text', (file ≠ .gate → text' = text) ∧
      Under k (h.setLock file mode) text' own (t.setLock file lock) := by
  by_cases gate : file = .gate
  · refine ⟨t.readiness, fun other => absurd gate other, ?_⟩
    exact Under.setLock ⟨under.holding, fun _ => rfl, under.own⟩ taken fun _ _ => rfl
  · refine ⟨text, fun _ => rfl, under.setLock taken ?_⟩
    intro free held
    cases file with
    | gate => exact absurd rfl gate
    | lease | owner => exact absurd free held

theorem stable_taken {mode : Mode} : discipline.Stable k fun t =>
    ∃ text', (file ≠ .gate → text' = text) ∧ Under k (h.setLock file mode) text' own t :=
  Discipline.stable_exists fun _ => Discipline.Stable.and Discipline.stable_const stable_under

theorem sat_exclusive (file : LockFile) (known : Under k h text own s) (refused : F h)
    (sound : (h.setLock file .exclusive).Sound) :
    discipline.Sat k (exclusive k file)
      (fun _ t => ∃ text', (file ≠ .gate → text' = text) ∧
        Under k (h.setLock file .exclusive) text' own t)
      (fun _ t => F (t.holding k)) s := by
  apply sat_call known refused fun _ => stable_taken
  intro t inv under
  cases took : (t.locks file).tryLock k with
  | none => exact ⟨allows_nothing inv, by rwa [under.holding]⟩
  | some lock =>
      have mine : lock.mode k = .exclusive := by
        rw [(FileLock.tryLock_mode took k).1, if_pos rfl]
      refine ⟨allows_setLock inv ?_ (by rwa [under.holding, mine]), under.taken mine⟩
      intro j other
      obtain ⟨now, before⟩ := FileLock.tryLock_mode took j
      rw [now, before, if_neg other]

theorem sat_shared (file : LockFile) (known : Under k h text own s) (refused : F h)
    (sound : (h.setLock file .shared).Sound) :
    discipline.Sat k (shared k file)
      (fun _ t => ∃ text', (file ≠ .gate → text' = text) ∧
        Under k (h.setLock file .shared) text' own t)
      (fun _ t => F (t.holding k)) s := by
  apply sat_call known refused fun _ => stable_taken
  intro t inv under
  cases took : (t.locks file).tryLockShared k with
  | none => exact ⟨allows_nothing inv, by rwa [under.holding]⟩
  | some lock =>
      have mine : lock.mode k = .shared := by
        rw [FileLock.tryLockShared_mode took k, if_pos rfl]
      refine ⟨allows_setLock inv ?_ (by rwa [under.holding, mine]), under.taken mine⟩
      intro j other
      rw [FileLock.tryLockShared_mode took j, if_neg other]

theorem allows_unlock (inv : Invariant t) (sound : ((t.holding k).setLock file .free).Sound) :
    discipline.Allows k t (t.unlock k file) := by
  apply allows_setLock inv
  · intro j other
    rw [FileLock.unlock_mode, if_neg other]
  · rwa [FileLock.unlock_mode, if_pos rfl]

theorem Under.unlock (under : Under k h text own t) (file : LockFile) :
    Under k (h.setLock file .free) text own (t.unlock k file) := by
  apply Under.setLock under (by rw [FileLock.unlock_mode, if_pos rfl])
  intro free held
  cases file with
  | gate => exact absurd rfl held
  | lease | owner => exact absurd free held

section

variable (known : Under k h text own s)

include known

theorem sat_close (sound : (h.setLock file .free).Sound) :
    discipline.Sat k (close k file) (fun _ => Under k (h.setLock file .free) text own)
      (fun _ t => F (t.holding k)) s := by
  apply Discipline.sat_atomic stable_under known (fun _ => stable_under) fun _ => stable_holding
  intro _ t inv under
  exact ⟨allows_unlock inv (by rwa [under.holding]), under.unlock file⟩

theorem sat_fileIdentity (refused : F h) :
    discipline.Sat k (fileIdentity k)
      (fun identity => Under k h text (own ++ [.identified k identity]))
      (fun _ t => F (t.holding k)) s :=
  sat_call known refused (fun _ => stable_under) fun _ inv under =>
    ⟨allows_record inv rfl .identified, under.record rfl⟩

theorem sat_readRecord (refused : F h) (held : h.gate ≠ .free)
    (identity : FileIdentity) :
    discipline.Sat k (readRecord identity) (fun read t => read = text ∧ Under k h text own t)
      (fun _ t => F (t.holding k)) s := by
  apply sat_call known refused fun _ =>
    Discipline.Stable.and Discipline.stable_const stable_under
  intro t inv under
  refine ⟨allows_nothing inv, ?_⟩
  cases result : readReadiness t.readiness identity with
  | ok read => exact ⟨(readReadiness_ok result).trans (under.readiness held), under⟩
  | error e =>
      change F (t.holding k)
      rwa [under.holding]

theorem sat_lift {result : Except StoreError α} (refused : F h) :
    discipline.Sat k (Process.lift result : StoreStep α) (fun _ => Under k h text own)
      (fun _ t => F (t.holding k)) s := by
  apply Discipline.sat_lift
  · exact fun _ _ => ⟨stable_under, known⟩
  · exact fun _ _ => ⟨stable_holding, by rwa [known.holding]⟩

theorem sat_fail {post : α → StoreFiles → Prop} {e : StoreError}
    (refused : F h) :
    discipline.Sat k (Process.fail e : StoreStep α) post (fun _ t => F (t.holding k)) s :=
  Discipline.sat_fail stable_holding (by rwa [known.holding])

theorem sat_connection (inv : Invariant s) (refused : F h)
    (sqliteVersion : Nat) (readOnly : Bool) :
    discipline.Sat k (operationalConnection k sqliteVersion readOnly)
      (fun connection => Under k h text (own ++ [.connected k connection]))
      (fun _ t => F (t.holding k)) s := by
  unfold operationalConnection
  apply Discipline.Sat.bind inv (sat_lift known refused)
  intro _ t inv under
  have connects : discipline.Sat k
      (call fun s =>
        let connection : Connection := ⟨readOnly, s.database⟩
        (.ok connection, s.record (.connected k connection)))
      (fun connection => Under k h text (own ++ [.connected k connection]))
      (fun _ t => F (t.holding k)) t :=
    sat_call under refused (fun _ => stable_under) fun _ inv under =>
      ⟨allows_record inv rfl .connected, under.record rfl⟩
  apply Discipline.Sat.bind inv connects
  intro connection t inv under
  apply Discipline.Sat.bind inv (sat_look under refused)
  intro _ t inv under
  exact Discipline.sat_pure stable_under under

end

end Steps

/-! ## Finding a primary -/

section Finding

variable {j k : Holder} {h : Holding} {text : String} {own : List Moment} {s t : StoreFiles}
  {F : Holding → Prop}

/-- An owner that does not hold the gate has bound the Store that the record names. -/
theorem Invariant.livePrimary (inv : Invariant t) (owns : (t.locks .owner).exclusive = some j)
    (gate : (t.holding j).gate ≠ .exclusive) :
    ∃ p, t.livePrimary = some p ∧ Begun t.log p ∧ p.2.generation = t.readiness := by
  have owner : (t.holding j).owner = .exclusive := FileLock.mode_exclusive_iff.mpr owns
  rcases (inv.holdings j).owner_exclusive owner with preparing | ⟨store, live, primary⟩
  · exact absurd preparing gate
  · change t.stores j = some store at live
    refine ⟨(j, store), ?_, ⟨inv.bound j store live, primary⟩,
      (inv.readiness j store live primary).symm⟩
    simp [StoreFiles.livePrimary, owns, live, primary]

theorem sat_tryOwner (known : Under k h text own s) (refused : F h)
    (gate : h.gate = .exclusive) (owner : h.owner = .free)
    (sound : (h.setLock .owner .exclusive).Sound) :
    discipline.Sat k (tryOwner k)
      (fun free t =>
        if free then Under k (h.setLock .owner .exclusive) text own t
        else ∃ p : Holder × PreparedStore, p.2.generation = text ∧
          Under k h text (own ++ [.contended k (some p)]) t)
      (fun _ t => F (t.holding k)) s := by
  apply sat_call known refused
  · intro free
    cases free with
    | true => exact stable_under
    | false =>
        exact Discipline.stable_exists fun _ =>
          Discipline.Stable.and Discipline.stable_const stable_under
  intro t inv under
  have mine : ∀ j, j ≠ k → (t.holding j).gate = .free := fun j other =>
    StoreFiles.holding_free .gate (by rw [under.holding]; exact gate) other
  cases took : (t.locks .owner).tryLock k with
  | some lock =>
      have taken : lock.mode k = .exclusive := by
        rw [(FileLock.tryLock_mode took k).1, if_pos rfl]
      refine ⟨allows_setLock inv ?_ (by rwa [under.holding, taken]), ?_⟩
      · intro j other
        obtain ⟨now, before⟩ := FileLock.tryLock_mode took j
        rw [now, before, if_neg other]
      · exact under.setLock taken fun free _ => by simp [gate] at free
  | none =>
      -- a probe would share the gate, and a preparer would hold it
      obtain ⟨j, used⟩ := FileLock.tryLock_none took
      have other : j ≠ k := by
        intro same
        subst same
        exact used ((congrArg Holding.owner under.holding).trans owner)
      have owns : (t.locks .owner).mode j = .exclusive := by
        cases mode : (t.locks .owner).mode j with
        | free => exact absurd mode used
        | shared =>
            have probing := (inv.holdings j).owner_shared mode
            exact absurd (probing.symm.trans (mine j other)) (by decide)
        | exclusive => rfl
      obtain ⟨p, live, begun, generation⟩ :=
        inv.livePrimary (FileLock.mode_exclusive_iff.mp owns) (by rw [mine j other]; decide)
      have record : t.readiness = text := under.readiness (by rw [gate]; decide)
      rw [live]
      exact ⟨allows_record inv rfl (.contended begun), p, generation.trans record,
        under.record rfl⟩

theorem sat_primaryIsLive (known : Under k h text own s) (refused : F h)
    (gate : h.gate = .shared) (owner : h.owner ≠ .shared) :
    discipline.Sat k (primaryIsLive k)
      (fun live t =>
        if live then ∃ p : Holder × PreparedStore, p.2.generation = text ∧
          Under k h text (own ++ [.probed k (some p)]) t
        else h.owner = .free ∧ Under k (h.setLock .owner .shared) text own t)
      (fun _ t => F (t.holding k)) s := by
  apply sat_call known refused
  · intro live
    cases live with
    | true =>
        exact Discipline.stable_exists fun _ =>
          Discipline.Stable.and Discipline.stable_const stable_under
    | false => exact Discipline.Stable.and Discipline.stable_const stable_under
  intro t inv under
  have sound : h.Sound := under.holding ▸ inv.holdings k
  cases took : (t.locks .owner).tryLockShared k with
  | some lock =>
      have free : h.owner = .free := by
        have nobody := (FileLock.tryLockShared_some took).1
        have held : (t.locks .owner).mode k = h.owner := congrArg Holding.owner under.holding
        cases mode : h.owner with
        | free => rfl
        | shared => exact absurd mode owner
        | exclusive =>
            rw [mode, FileLock.mode_exclusive_iff, nobody] at held
            cases held
      have taken : lock.mode k = .shared := by
        rw [FileLock.tryLockShared_mode took k, if_pos rfl]
      refine ⟨allows_setLock inv ?_ ?_, free, ?_⟩
      · intro j other
        rw [FileLock.tryLockShared_mode took j, if_neg other]
      · rw [under.holding, taken]
        constructor
        · intro store live primary
          exact absurd ((sound.primary store live primary).symm.trans free) (by decide)
        · exact sound.attached
        · nofun
        · exact fun _ => gate
        · intro migrating
          exact absurd ((sound.migrating migrating).1.symm.trans gate) (by decide)
      · exact under.setLock taken fun free _ => by simp [gate] at free
  | none =>
      obtain ⟨j, owns, -⟩ := FileLock.tryLockShared_none took
      have shares : (t.holding k).gate = .shared := by rw [under.holding, gate]
      have no_preparer : (t.holding j).gate ≠ .exclusive := by
        intro preparing
        by_cases same : j = k
        · subst same
          exact absurd (preparing.symm.trans shares) (by decide)
        · have nobody := StoreFiles.holding_free .gate preparing (Ne.symm same)
          exact absurd (nobody.symm.trans shares) (by decide)
      obtain ⟨p, live, begun, generation⟩ := inv.livePrimary owns no_preparer
      have record : t.readiness = text := under.readiness (by rw [gate]; decide)
      rw [live]
      exact ⟨allows_record inv rfl (.probed begun), p, generation.trans record,
        under.record rfl⟩

theorem sat_requirePrimary (known : Under k h text own s) (inv : Invariant s) (refused : F h)
    (gate : h.gate = .shared) (owner : h.owner ≠ .shared) :
    discipline.Sat k (requirePrimary k)
      (fun _ t => ∃ p : Holder × PreparedStore, p.2.generation = text ∧
        Under k h text (own ++ [.probed k (some p)]) t)
      (fun _ t => F (t.holding k)) s := by
  unfold requirePrimary
  apply Discipline.Sat.bind inv (sat_look known refused)
  intro _ t inv under
  have sound : h.Sound := under.holding ▸ inv.holdings k
  apply Discipline.Sat.bind inv (sat_primaryIsLive under refused gate owner)
  intro live t inv found
  cases live with
  | true =>
      rw [if_pos rfl] at found ⊢
      exact Discipline.sat_pure (Discipline.stable_exists fun _ =>
        Discipline.Stable.and Discipline.stable_const stable_under) found
  | false =>
      simp only [Bool.false_eq_true, if_false] at found ⊢
      obtain ⟨free, under⟩ := found
      have back : (h.setLock .owner .shared).setLock .owner .free = h := by
        change { h with owner := .free } = h
        rw [← free]
      apply Discipline.Sat.bind inv (sat_close under (by rwa [back]))
      intro _ t inv under
      rw [back] at under
      exact sat_fail under refused

end Finding

/-! ## Use -/

section Uses

variable {k : Holder} {h : Holding} {text : String} {own : List Moment} {s t : StoreFiles}
  {store : PreparedStore}

theorem under_self : Under k (s.holding k) s.readiness (s.own k) s :=
  ⟨rfl, fun _ => rfl, rfl⟩

theorem sound_share (sound : h.Sound) (gate : h.gate = .free) :
    (h.setLock .gate .shared).Sound where
  primary := sound.primary
  attached := sound.attached
  owner_exclusive := by
    intro owner
    cases sound.owner_exclusive owner with
    | inl preparing => exact absurd (preparing.symm.trans gate) (by decide)
    | inr live => exact .inr live
  owner_shared := fun _ => rfl
  migrating := by
    intro migrating
    exact absurd ((sound.migrating migrating).1.symm.trans gate) (by decide)

theorem sat_checkReady (known : Under k h text own s) (inv : Invariant s) (gate : h.gate = .free)
    (owner : h.owner ≠ .shared) :
    discipline.Sat k (checkReady k store)
      (fun _ t => ∃ p : Holder × PreparedStore, p.2.generation = store.generation ∧
        Under k h text (own ++ [.probed k (some p), .identified k store.identity]) t)
      (fun _ t => t.holding k = h) s := by
  have sound : h.Sound := known.holding ▸ inv.holdings k
  have back : (h.setLock .gate .shared).setLock .gate .free = h := by
    change { h with gate := .free } = h
    rw [← gate]
  unfold checkReady
  apply Discipline.Sat.bind inv (sat_look (F := (· = h)) known rfl)
  intro _ t inv under
  apply Discipline.Sat.bind inv (sat_shared (F := (· = h)) .gate under rfl (sound_share sound gate))
  intro _ t inv shares
  obtain ⟨record, -, under⟩ := shares
  have checks : discipline.Sat k
      (do
        requirePrimary k
        lockFile
        if (← readRecord store.identity) ≠ store.generation then
          Process.fail (.notInitialized "Store owner generation changed")
        else if (← fileIdentity k) ≠ store.identity then
          Process.fail (.notInitialized "Prepared store file was replaced")
        else
          return ())
      (fun _ t => ∃ p : Holder × PreparedStore, p.2.generation = store.generation ∧
        Under k (h.setLock .gate .shared) record
          (own ++ [.probed k (some p), .identified k store.identity]) t)
      (fun _ t => t.holding k = h.setLock .gate .shared) t := by
    apply Discipline.Sat.bind inv
      (sat_requirePrimary (F := (· = h.setLock .gate .shared)) under inv rfl rfl owner)
    intro _ t inv found
    obtain ⟨p, generation, under⟩ := found
    apply Discipline.Sat.bind inv (sat_look (F := (· = h.setLock .gate .shared)) under rfl)
    intro _ t inv under
    apply Discipline.Sat.bind inv (sat_readRecord (F := (· = h.setLock .gate .shared)) under rfl nofun
      store.identity)
    intro read t inv reads
    obtain ⟨same, under⟩ := reads
    by_cases changed : read ≠ store.generation
    · rw [if_pos changed]
      exact sat_fail (F := (· = h.setLock .gate .shared)) under rfl
    rw [if_neg changed]
    apply Discipline.Sat.bind inv (sat_fileIdentity (F := (· = h.setLock .gate .shared)) under rfl)
    intro identity t inv under
    by_cases replaced : identity ≠ store.identity
    · rw [if_pos replaced]
      exact sat_fail (F := (· = h.setLock .gate .shared)) under rfl
    rw [if_neg replaced]
    rw [not_not.mp replaced, List.append_assoc] at under
    apply Discipline.sat_pure
    · exact Discipline.stable_exists fun _ =>
        Discipline.Stable.and Discipline.stable_const stable_under
    · exact ⟨p, (generation.trans same.symm).trans (not_not.mp changed), under⟩
  apply checks.releasing
  · exact fun _ => Discipline.stable_exists fun _ =>
      Discipline.Stable.and Discipline.stable_const stable_under
  · exact fun _ => stable_holding (F := (· = h))
  · intro _ t inv found
    obtain ⟨p, generation, under⟩ := found
    have released := under.unlock .gate
    rw [back] at released
    exact ⟨allows_unlock inv (by rwa [under.holding, back]), p, generation,
      released.forget gate⟩
  · intro _ t inv held
    refine ⟨allows_unlock inv (by rwa [held, back]), ?_⟩
    rw [StoreFiles.holding_unlock_self, held, back]

/-- The two checks of `open` found the same primary Store. -/
theorem sat_openStore (known : Under k h text own s) (inv : Invariant s) (gate : h.gate = .free)
    (owner : h.owner ≠ .shared) (sqliteVersion : Nat) (readOnly : Bool) :
    discipline.Sat k (openStore k sqliteVersion store readOnly)
      (fun _ t => t.holding k = h) (fun _ t => t.holding k = h) s := by
  unfold openStore
  apply Discipline.Sat.bind inv (sat_checkReady known inv gate owner)
  intro _ t inv found
  obtain ⟨p, first, under⟩ := found
  apply Discipline.Sat.bind inv
    (sat_connection (F := (· = h)) under inv rfl sqliteVersion readOnly)
  intro connection t inv under
  apply Discipline.Sat.bind inv (sat_checkReady under inv gate owner)
  intro _ t inv found
  obtain ⟨q, second, under⟩ := found
  apply Discipline.sat_atomic stable_under under (fun _ => stable_holding (F := (· = h)))
    fun _ => stable_holding (F := (· = h))
  intro _ t inv under
  have begun : ∀ r, .probed k (some r) ∈ t.own k → Begun t.log r := by
    intro r mem
    have finding : (Moment.probed k (some r)).finding = some (some r) := rfl
    obtain ⟨r', same, begun⟩ :=
      inv.log.begun_of_finding (StoreFiles.mem_own.mp mem).1 finding
    cases same
    exact begun
  have before : .probed k (some p) ∈ t.own k := by simp [under.own]
  have after : .probed k (some q) ∈ t.own k := by simp [under.own]
  have same : p = q :=
    inv.log.begun_unique (begun p before) (begun q after) (first.trans second.symm)
  subst same
  have mine : t.own k = own ++ window k p store.identity connection := by
    rw [under.own, List.append_assoc, List.append_assoc]
    rfl
  exact ⟨allows_record inv rfl (.opened first mine), under.holding⟩

theorem sat_useAll (inv : Invariant s) (gate : (s.holding k).gate = .free)
    (owner : (s.holding k).owner ≠ .shared) (sqliteVersion : Nat) (uses : List Use) :
    discipline.Sat k (useAll k sqliteVersion store uses)
      (fun _ t => t.holding k = s.holding k) (fun _ t => t.holding k = s.holding k) s := by
  have unchanged := stable_holding (k := k) (F := (· = s.holding k))
  have use_one : ∀ (use : Use) t, Invariant t → t.holding k = s.holding k →
      discipline.Sat k (useStore k sqliteVersion store use).attempt
        (fun _ u => u.holding k = s.holding k) (fun _ u => u.holding k = s.holding k) t := by
    intro use t inv same
    rw [← same] at gate owner ⊢
    have opens : ∀ readOnly, discipline.Sat k
        (do
          let _ ← openStore k sqliteVersion store readOnly
          return ())
        (fun _ u => u.holding k = t.holding k) (fun _ u => u.holding k = t.holding k) t := by
      intro readOnly
      apply Discipline.Sat.bind inv
        (sat_openStore under_self inv gate owner sqliteVersion readOnly)
      exact fun _ u _ held => Discipline.sat_pure (stable_holding (F := (· = t.holding k))) held
    apply Discipline.Sat.attempt
    cases use with
    | checkReady =>
        apply (sat_checkReady under_self inv gate owner).weaken
        · exact fun _ _ _ ⟨_, _, under⟩ => under.holding
        · exact fun _ _ _ held => held
    | reader => exact opens true
    | writer => exact opens false
  have go : ∀ t, Invariant t → t.holding k = s.holding k →
      discipline.Sat k (useAll k sqliteVersion store uses)
        (fun _ u => u.holding k = s.holding k) (fun _ u => u.holding k = s.holding k) t := by
    induction uses with
    | nil => exact fun t _ same => Discipline.sat_pure unchanged same
    | cons use rest ih =>
        intro t inv same
        apply Discipline.Sat.bind inv (use_one use t inv same)
        exact fun _ u inv held => ih u inv held
  exact go s inv rfl

theorem allows_drop (inv : Invariant t) {file : LockFile}
    (sound : ({ (t.holding k).setLock file .free with store := none } : Holding).Sound) :
    discipline.Allows k t ((t.unlock k file).setStore k none) := by
  apply allows_of inv
  · intro j other
    rw [StoreFiles.holding_setStore_other none other,
      StoreFiles.holding_unlock_other file other]
  · exact .inl rfl
  · exact .inl rfl
  · rwa [StoreFiles.holding_setStore_self, StoreFiles.holding_unlock_self]
  · intro other live
    change Function.update t.stores k none k = some other at live
    rw [Function.update_self] at live
    cases live

theorem Holding.sound_none {gate lease : Mode} :
    (⟨gate, lease, .free, none, false⟩ : Holding).Sound := by
  constructor <;> nofun

theorem sat_release {F : Holding → Prop} {left : Holding} {run : StoreFiles → StoreFiles}
    (held : s.holding k = h)
    (moves : ∀ t, Invariant t → t.holding k = h →
      discipline.Allows k t (run t) ∧ (run t).holding k = left) :
    discipline.Sat k (.atomic fun _ s => (.ok (), run s) : StoreStep Unit)
      (fun _ t => t.holding k = left) (fun _ t => F (t.holding k)) s := by
  apply Discipline.sat_atomic (stable_holding (F := (· = h))) held
    (fun _ => stable_holding (F := (· = left))) fun _ => stable_holding
  exact fun _ t inv same => moves t inv same

theorem sat_dropStore (inv : Invariant s) (live : s.holding k = Holding.live store) :
    discipline.Sat k (dropStore k store) (fun _ t => t.holding k = Holding.idle)
      (fun _ t => t.holding k = Holding.idle) s := by
  unfold dropStore
  cases primary : store.primary with
  | true =>
      have kept : (Holding.live store).setLock .lease .free =
          ⟨.free, .free, .exclusive, some store, false⟩ := by
        simp [Holding.live, Holding.setLock, primary]
      have sound : (⟨.free, .free, .exclusive, some store, false⟩ : Holding).Sound := by
        constructor <;> simp [primary]
      apply Discipline.Sat.bind inv
      · apply sat_release live (F := (· = Holding.idle))
        intro t inv held
        rw [if_pos rfl]
        refine ⟨allows_unlock inv (by rwa [held, kept]), ?_⟩
        rw [StoreFiles.holding_unlock_self, held, kept]
      · intro _ t inv held
        apply sat_release held (F := (· = Holding.idle))
        intro t inv held
        refine ⟨allows_drop inv (by rw [held]; exact Holding.sound_none), ?_⟩
        rw [StoreFiles.holding_setStore_self, StoreFiles.holding_unlock_self, held]
        rfl
  | false =>
      apply Discipline.Sat.bind inv
      · apply sat_release live (F := (· = Holding.idle))
        intro t inv held
        have kept : ({ (t.holding k).setLock .lease .free with store := none } : Holding) =
            Holding.idle := by
          simp [held, Holding.live, Holding.setLock, Holding.idle, primary]
        rw [if_neg Bool.false_ne_true]
        refine ⟨allows_drop inv (by rw [kept]; exact Holding.sound_none), ?_⟩
        rw [StoreFiles.holding_setStore_self, StoreFiles.holding_unlock_self, kept]
      · intro _ t inv held
        apply sat_release held (F := (· = Holding.idle))
        intro t inv held
        refine ⟨allows_drop inv (by rw [held]; exact Holding.sound_none), ?_⟩
        rw [StoreFiles.holding_setStore_self, StoreFiles.holding_unlock_self, held]
        rfl

end Uses

/-! ## Binding -/

section Binding

variable {k : Holder} {h : Holding} {text generation : String} {own : List Moment}
  {s t : StoreFiles} {gate : Mode} {F : Holding → Prop} {primary : Bool}

/-- Why a Store may be bound under a generation: its call drew it, or met a primary under it. -/
inductive Entitled (k : Holder) (own : List Moment) (generation : String) : Bool → Prop where
  | primary {uuid} (issued : .issued k uuid generation ∈ own)
      (first : ∀ store, .bound k store ∈ own → store.generation ≠ generation) :
      Entitled k own generation true
  | attached {p front moments} (met : Met k p moments) (split : own = front ++ moments)
      (same : p.2.generation = generation) : Entitled k own generation false

theorem Entitled.identified (entitled : Entitled k own generation primary)
    (identity : FileIdentity) :
    Entitled k (own ++ [.identified k identity]) generation primary := by
  cases entitled with
  | primary issued first =>
      apply Entitled.primary (List.mem_append_left _ issued)
      intro store mem
      rw [List.mem_append, List.mem_singleton] at mem
      cases mem with
      | inl mem => exact first store mem
      | inr other => cases other
  | attached met split same =>
      exact .attached (met.identified identity) (by rw [split, List.append_assoc]) same

theorem Entitled.follows {store : PreparedStore} (under : Under k h text own t)
    (entitled : Entitled k own store.generation store.primary) :
    Moment.Follows t.log (.bound k store) := by
  rw [← under.own] at entitled
  cases role : store.primary with
  | true =>
      rw [role] at entitled
      cases entitled with
      | primary issued first =>
          apply Moment.Follows.primary role (StoreFiles.mem_own.mp issued).1
          exact fun other mem => first other (StoreFiles.mem_own.mpr ⟨mem, rfl⟩)
  | false =>
      rw [role] at entitled
      cases entitled with
      | attached met split same => exact .attached role met split same

theorem allows_bind {store : PreparedStore} (inv : Invariant t) (under : Under k h text own t)
    (held : h.gate ≠ .free) (record : store.generation = text)
    (entitled : Entitled k own store.generation store.primary)
    (sound : ({ h with store := some store } : Holding).Sound) :
    discipline.Allows k t ((t.setStore k (some store)).record (.bound k store)) := by
  apply allows_of inv
  · intro j other
    rw [StoreFiles.holding_record, StoreFiles.holding_setStore_other _ other]
  · exact .inl rfl
  · exact .inr ⟨_, rfl, entitled.follows under, rfl⟩
  · rwa [StoreFiles.holding_record, StoreFiles.holding_setStore_self, under.holding]
  · intro other live
    change Function.update t.stores k (some store) k = some other at live
    rw [Function.update_self] at live
    cases live
    exact ⟨fun _ => (under.readiness held).trans record.symm, by simp [StoreFiles.record]⟩

theorem sat_bind (known : Under k h text own s) (inv : Invariant s) (refused : F h)
    (held : h.gate ≠ .free) (entitled : Entitled k own text primary) (identity : FileIdentity)
    (sound : ({ h with store := some ⟨identity, text, primary⟩ } : Holding).Sound) :
    discipline.Sat k (Lifecycle.bind k identity text primary)
      (fun store t => store.primary = primary ∧ t.holding k = { h with store := some store })
      (fun _ t => F (t.holding k)) s := by
  unfold Lifecycle.bind
  apply Discipline.Sat.bind inv (sat_fileIdentity known refused)
  intro found t inv under
  by_cases changed : found ≠ identity
  · rw [if_pos changed]
    exact sat_fail under refused
  rw [if_neg changed]
  apply Discipline.sat_atomic stable_under under _ fun _ => stable_holding
  · intro _ t inv under
    refine ⟨allows_bind inv under held rfl (entitled.identified found) sound, rfl, ?_⟩
    rw [StoreFiles.holding_record, StoreFiles.holding_setStore_self, under.holding]
  · exact fun store => Discipline.Stable.and Discipline.stable_const
      (stable_holding (F := (· = { h with store := some store })))

/-! ## Giving up -/

/-- Before a Store is bound. -/
structure Empty (mode : Mode) (h : Holding) : Prop where
  gate : h.gate = mode
  owner : h.owner = .free ∨ mode = .exclusive ∧ h.owner = .exclusive
  store : h.store = none
  migrating : h.migrating = false

def Holding.gateOnly (gate : Mode) : Holding :=
  { Holding.idle with gate := gate }

theorem Empty.sound (empty : Empty gate h) : h.Sound where
  primary := by simp [empty.store]
  attached := by simp [empty.store]
  owner_exclusive := by
    intro owner
    cases empty.owner with
    | inl free => exact absurd (free.symm.trans owner) (by decide)
    | inr owned => exact .inl (empty.gate.trans owned.1)
  owner_shared := by
    intro owner
    cases empty.owner with
    | inl free => exact absurd (free.symm.trans owner) (by decide)
    | inr owned => exact absurd (owned.2.symm.trans owner) (by decide)
  migrating := by simp [empty.migrating]

theorem Empty.release (empty : Empty gate h) {file : LockFile} (other : file ≠ .gate) :
    Empty gate (h.setLock file .free) := by
  cases file with
  | gate => exact absurd rfl other
  | lease => exact ⟨empty.gate, empty.owner, empty.store, empty.migrating⟩
  | owner => exact ⟨empty.gate, .inl rfl, empty.store, empty.migrating⟩

theorem sat_closeAll {files : List LockFile} (others : .gate ∉ files) (inv : Invariant s)
    (empty : Empty gate (s.holding k)) :
    discipline.Sat k (closeAll k files)
      (fun _ t => t.holding k = files.foldl (·.setLock · .free) (s.holding k))
      (fun _ t => F (t.holding k)) s := by
  induction files generalizing s with
  | nil =>
      exact Discipline.sat_pure (stable_holding (F := (· = s.holding k))) rfl
  | cons file rest ih =>
      rw [List.mem_cons, not_or] at others
      have released := empty.release (Ne.symm others.1)
      apply Discipline.Sat.bind inv (sat_close under_self released.sound)
      intro _ t inv under
      rw [List.foldl_cons, ← under.holding]
      exact ih others.2 inv (by rwa [under.holding])

theorem sat_guarding {α : Type} {post : α → StoreFiles → Prop} {files : List LockFile}
    {body : StoreStep α} (inv : Invariant s) (others : .gate ∉ files)
    (closes : ∀ h, Empty gate h → files.foldl (·.setLock · .free) h = Holding.gateOnly gate)
    (stable : ∀ a, discipline.Stable k (post a))
    (keeps : discipline.Sat k body post (fun _ t => Empty gate (t.holding k)) s) :
    discipline.Sat k (guarding k files body) post
      (fun _ t => t.holding k = Holding.gateOnly gate) s := by
  have attempted : discipline.Sat k body.attempt
      (fun result t =>
        match result with
        | .ok a => post a t
        | .error _ => Empty gate (t.holding k))
      (fun _ t => t.holding k = Holding.gateOnly gate) s := keeps.attempt
  unfold guarding
  apply Discipline.Sat.bind inv attempted
  intro result t inv ended
  cases result with
  | ok a => exact Discipline.sat_pure (stable a) ended
  | error e =>
      apply Discipline.Sat.bind inv
        (sat_closeAll (F := (· = Holding.gateOnly gate)) others inv ended)
      intro _ u _ held
      rw [closes _ ended] at held
      exact Discipline.sat_fail (stable_holding (F := (· = Holding.gateOnly gate))) held

end Binding

end DocumentSummarizer.Pipeline.Lifecycle
