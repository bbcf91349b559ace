import DocumentSummarizer.Pipeline.StoreCalls

/-! # Preparing a store and attaching to it

A preparer either owns the primary lock and writes the record itself, or met a
live primary under its record.  A consumer met one under the gate.
-/

namespace DocumentSummarizer.Pipeline.Lifecycle

open Library
open Library.FileLock (Mode)

/-! ## Preparation -/

section Preparation

variable {k : Holder} {text generation : String} {own : List Moment} {s : StoreFiles}
  {lease owner : Mode}

/-- A preparer under the gate. -/
def Holding.preparing (lease owner : Mode) : Holding :=
  ⟨.exclusive, lease, owner, none, false⟩

theorem empty_preparing (owned : owner = .free ∨ owner = .exclusive) :
    Empty .exclusive (Holding.preparing lease owner) where
  gate := rfl
  owner := owned.imp id fun exclusive => ⟨rfl, exclusive⟩
  store := rfl
  migrating := rfl

theorem empty_owner : Empty .exclusive (Holding.preparing lease .exclusive) :=
  empty_preparing (.inr rfl)

theorem empty_secondary : Empty .exclusive (Holding.preparing lease .free) :=
  empty_preparing (.inl rfl)

theorem owner_sound (lease : Mode) : (Holding.preparing lease .exclusive).Sound :=
  empty_owner.sound

theorem secondary_sound (lease : Mode) : (Holding.preparing lease .free).Sound :=
  empty_secondary.sound

/-- A step of the migration, which no other call could be in. -/
theorem allows_migrating {h : Holding} {t : StoreFiles} (inv : Invariant t)
    (under : Under k h text own t) (gate : h.gate = .exclusive) (started : Bool)
    (sound : ({ h with migrating := started } : Holding).Sound) :
    discipline.Allows k t { t with migrating := if started then some k else none } := by
  apply allows_of inv
  · intro j other
    have nobody : (t.migrating == some j) = false := by
      cases migrates : t.migrating == some j with
      | false => rfl
      | true =>
          have preparing := ((inv.holdings j).migrating migrates).1
          have free := StoreFiles.holding_free .gate
            (by rw [under.holding]; exact gate) other
          exact absurd (preparing.symm.trans free) (by decide)
    cases started with
    | true => simp [StoreFiles.holding, nobody, Ne.symm other]
    | false => simp [StoreFiles.holding, nobody]
  · exact .inl rfl
  · exact .inl rfl
  · have holding : ({ t with migrating := if started then some k else none } : StoreFiles).holding
        k = { h with migrating := started } := by
      rw [← under.holding]
      cases started <;> simp [StoreFiles.holding]
    rwa [holding]
  · exact fun store live => ⟨inv.readiness k store live, inv.bound k store live⟩

theorem sat_initializeConnection
    (known : Under k (Holding.preparing .exclusive .exclusive) text own s) (inv : Invariant s)
    (sqliteVersion : Nat) :
    discipline.Sat k (initializeConnection k sqliteVersion)
      (fun _ => Under k (Holding.preparing .exclusive .exclusive) text own)
      (fun _ t => Empty .exclusive (t.holding k)) s := by
  have migrates : ({ Holding.preparing .exclusive .exclusive with migrating := true } :
      Holding).Sound := by
    constructor <;> simp [Holding.preparing]
  unfold initializeConnection
  apply Discipline.Sat.bind inv (sat_lift known empty_owner)
  intro _ t inv under
  apply Discipline.Sat.bind inv (sat_look under empty_owner)
  intro _ t inv under
  have starts : discipline.Sat k
      (.atomic fun _ s => (.ok (), { s with migrating := some k }) : StoreStep Unit)
      (fun _ => Under k { Holding.preparing .exclusive .exclusive with migrating := true } text
        own)
      (fun _ t => Empty .exclusive (t.holding k)) t := by
    apply Discipline.sat_atomic stable_under under (fun _ => stable_under)
      fun _ => stable_holding
    intro _ t inv under
    refine ⟨allows_migrating inv under rfl true migrates, ?_⟩
    have holding := under.holding
    refine ⟨?_, under.readiness, under.own⟩
    rw [← holding]
    simp [StoreFiles.holding]
  apply Discipline.Sat.bind inv starts
  intro _ t inv under
  apply Discipline.sat_atomic stable_under under (fun _ => stable_under) fun _ => stable_holding
  intro answer t inv under
  have done : Under k (Holding.preparing .exclusive .exclusive) text own
      { t with migrating := none } := by
    refine ⟨?_, under.readiness, under.own⟩
    have holding := under.holding
    simp only [StoreFiles.holding, Holding.preparing, Holding.mk.injEq] at holding ⊢
    exact ⟨holding.1, holding.2.1, holding.2.2.1, holding.2.2.2.1, rfl⟩
  refine ⟨allows_migrating inv under rfl false empty_owner.sound, ?_⟩
  cases answer.fails with
  | some e =>
      change Empty .exclusive (StoreFiles.holding _ k)
      rw [done.holding]
      exact empty_owner
  | none => exact done

theorem sat_drawRecord (known : Under k (Holding.preparing .exclusive .exclusive) text own s)
    (identity : FileIdentity) :
    discipline.Sat k (drawRecord k identity)
      (fun generation t => ∃ own', Entitled k own' generation true ∧
        Under k (Holding.preparing .exclusive .exclusive) text own' t)
      (fun _ t => Empty .exclusive (t.holding k)) s := by
  have stable : ∀ generation, discipline.Stable k fun t => ∃ own',
      Entitled k own' generation true ∧
        Under k (Holding.preparing .exclusive .exclusive) text own' t :=
    fun _ => Discipline.stable_exists fun _ =>
      Discipline.Stable.and Discipline.stable_const stable_under
  intro t inv frame answer u moved
  have under := stable_under s t inv frame known
  dsimp only at moved
  split at moved
  · cases moved
  rename_i fresh
  cases moved
  have unseen : ∀ j generation, .issued j answer.uuid generation ∉ t.log := by
    intro j generation mem
    apply fresh
    exact List.any_eq_true.mpr ⟨_, mem, beq_self_eq_true answer.uuid⟩
  have entitled : Entitled k
      (own ++ [.issued k answer.uuid (readinessRecord identity answer.uuid)])
      (readinessRecord identity answer.uuid) true := by
    apply Entitled.primary (List.mem_append_right _ (List.mem_singleton.mpr rfl))
    intro store mem same
    rw [List.mem_append, List.mem_singleton] at mem
    cases mem with
    | inr other => cases other
    | inl mem =>
        rw [← under.own] at mem
        obtain ⟨j, uuid, issued⟩ := inv.log.issued_of_bound (StoreFiles.mem_own.mp mem).1
        obtain ⟨identity', record⟩ := inv.log.record_of_issued issued
        have drawn : uuid = answer.uuid := readinessRecord_inj (record.symm.trans same)
        rw [drawn] at issued
        exact unseen _ _ issued
  exact ⟨allows_record inv rfl (.issued identity unseen),
    Discipline.sat_pure (stable _) ⟨_, entitled, under.record rfl⟩⟩

theorem allows_write {t : StoreFiles} (inv : Invariant t)
    (under : Under k (Holding.preparing .exclusive .exclusive) text own t) (written : String) :
    discipline.Allows k t { t with readiness := written } ∧
      Under k (Holding.preparing .exclusive .exclusive) written own
        { t with readiness := written } := by
  constructor
  · apply allows_of inv
    · exact fun _ _ => rfl
    · exact .inr ⟨by rw [under.holding]; rfl, by rw [under.holding]; rfl⟩
    · exact .inl rfl
    · exact inv.holdings k
    · intro store live
      have none_live : t.stores k = none := congrArg Holding.store under.holding
      change t.stores k = some store at live
      rw [none_live] at live
      cases live
  · exact ⟨under.holding, fun _ => rfl, under.own⟩

/-- A write that fails leaves a part of the record. -/
theorem sat_beginRecord (known : Under k (Holding.preparing .exclusive .exclusive) text own s)
    (generation : String) :
    discipline.Sat k
      (.atomic fun answer s =>
        (match answer.fails with
          | some e => .error e
          | none => .ok (),
          { s with readiness := String.ofList (generation.toList.take answer.written) }) :
        StoreStep Unit)
      (fun _ t => ∃ written, Under k (Holding.preparing .exclusive .exclusive) written own t)
      (fun _ t => Empty .exclusive (t.holding k)) s := by
  apply Discipline.sat_atomic stable_under known
    (fun _ => Discipline.stable_exists fun _ => stable_under) fun _ => stable_holding
  intro answer t inv under
  obtain ⟨allowed, after⟩ :=
    allows_write inv under (String.ofList (generation.toList.take answer.written))
  refine ⟨allowed, ?_⟩
  cases answer.fails with
  | some e =>
      change Empty .exclusive (StoreFiles.holding _ k)
      rw [after.holding]
      exact empty_owner
  | none => exact ⟨_, after⟩

theorem sat_writeRecord (known : Under k (Holding.preparing .exclusive .exclusive) text own s)
    (inv : Invariant s) (generation : String) :
    discipline.Sat k (writeRecord generation)
      (fun _ => Under k (Holding.preparing .exclusive .exclusive) generation own)
      (fun _ t => Empty .exclusive (t.holding k)) s := by
  unfold writeRecord
  have truncates : discipline.Sat k
      (call fun s => (.ok (), { s with readiness := "" }) : StoreStep Unit)
      (fun _ => Under k (Holding.preparing .exclusive .exclusive) "" own)
      (fun _ t => Empty .exclusive (t.holding k)) s :=
    sat_call known empty_owner (fun _ => stable_under) fun _ inv under =>
      allows_write inv under ""
  apply Discipline.Sat.bind inv truncates
  intro _ t inv under
  apply Discipline.Sat.bind inv (sat_beginRecord under generation)
  intro _ t inv begun
  obtain ⟨written, under⟩ := begun
  have ends : discipline.Sat k
      (.atomic fun _ s => (.ok (), { s with readiness := generation }) : StoreStep Unit)
      (fun _ => Under k (Holding.preparing .exclusive .exclusive) generation own)
      (fun _ t => Empty .exclusive (t.holding k)) t :=
    Discipline.sat_atomic stable_under under (fun _ => stable_under) (fun _ => stable_holding)
      fun _ _ inv under => allows_write inv under generation
  apply Discipline.Sat.bind inv ends
  exact fun _ _ _ under => sat_look under empty_owner

theorem stable_entitled {h : Holding} {primary : Bool} :
    discipline.Stable k fun t => ∃ own', Entitled k own' generation primary ∧
      Under k h generation own' t :=
  Discipline.stable_exists fun _ => Discipline.Stable.and Discipline.stable_const stable_under

theorem sat_prepareOwned (known : Under k (Holding.preparing .free .exclusive) text own s)
    (inv : Invariant s) (sqliteVersion : Nat) :
    discipline.Sat k (prepareOwned k sqliteVersion)
      (fun generation t => ∃ own', Entitled k own' generation true ∧
        Under k (Holding.preparing .shared .exclusive) generation own' t)
      (fun _ t => Empty .exclusive (t.holding k)) s := by
  unfold prepareOwned
  apply Discipline.Sat.bind inv
    (sat_exclusive .lease known empty_owner (owner_sound .exclusive))
  intro _ t inv taken
  obtain ⟨record, -, under⟩ := taken
  change Under k (Holding.preparing .exclusive .exclusive) record own t at under
  apply Discipline.Sat.bind inv (sat_initializeConnection under inv sqliteVersion)
  intro _ t inv under
  apply Discipline.Sat.bind inv (sat_connection under inv empty_owner sqliteVersion false)
  intro _ t inv under
  apply Discipline.Sat.bind inv (sat_fileIdentity under empty_owner)
  intro identity t inv under
  apply Discipline.Sat.bind inv (sat_drawRecord under identity)
  intro generation t inv drawn
  obtain ⟨own', entitled, under⟩ := drawn
  apply Discipline.Sat.bind inv (sat_writeRecord under inv generation)
  intro _ t inv under
  have unlocks : discipline.Sat k
      (call fun s => (.ok (), s.unlock k .lease) : StoreStep Unit)
      (fun _ => Under k (Holding.preparing .free .exclusive) generation own')
      (fun _ t => Empty .exclusive (t.holding k)) t :=
    sat_call under empty_owner (fun _ => stable_under) fun _ inv under =>
      ⟨allows_unlock inv (by rw [under.holding]; exact owner_sound .free),
        under.unlock .lease⟩
  apply Discipline.Sat.bind inv unlocks
  intro _ t inv under
  apply Discipline.Sat.bind inv
    (sat_shared .lease under empty_owner (owner_sound .shared))
  intro _ t inv taken
  obtain ⟨record, same, under⟩ := taken
  rw [same nofun] at under
  exact Discipline.sat_pure stable_entitled ⟨own', entitled, under⟩

theorem sat_prepareSecondary (known : Under k (Holding.preparing .free .free) text own s)
    (inv : Invariant s) {p : Holder × PreparedStore} {front : List Moment}
    (found : own = front ++ [.contended k (some p)]) (generation : p.2.generation = text)
    (sqliteVersion : Nat) (authority : Bool) :
    discipline.Sat k (prepareSecondary k sqliteVersion authority)
      (fun generation t => ∃ own', Entitled k own' generation false ∧
        Under k (Holding.preparing .shared .free) generation own' t)
      (fun _ t => Empty .exclusive (t.holding k)) s := by
  unfold prepareSecondary
  cases authority with
  | true =>
      rw [if_pos rfl]
      exact sat_fail known empty_secondary
  | false =>
      rw [if_neg Bool.false_ne_true]
      apply Discipline.Sat.bind inv (sat_shared .lease known empty_secondary
        (secondary_sound .shared))
      intro _ t inv taken
      obtain ⟨record, same, under⟩ := taken
      rw [same nofun] at under
      change Under k (Holding.preparing .shared .free) text own t at under
      apply Discipline.Sat.bind inv
        (sat_connection under inv empty_secondary sqliteVersion false)
      intro connection t inv under
      apply Discipline.Sat.bind inv (sat_fileIdentity under empty_secondary)
      intro identity t inv under
      apply (sat_readRecord under empty_secondary nofun identity).weaken
      · intro read t _ reads
        obtain ⟨same, under⟩ := reads
        subst same
        have met := (Met.contended (p := p) connection).identified (k := k) identity
        have split : own ++ [.connected k connection] ++ [.identified k identity] =
            front ++ ([.contended k (some p), .connected k connection] ++
              [.identified k identity]) := by
          simp [found]
        exact ⟨_, .attached met split generation, under⟩
      · exact fun _ _ _ empty => empty

/-- A Store under the gate that was held for it. -/
def Holding.boundUnder (gate : Mode) (store : PreparedStore) : Holding :=
  { Holding.live store with gate := gate }

theorem sat_prepare (known : Under k (Holding.gateOnly .exclusive) text own s)
    (inv : Invariant s) (sqliteVersion : Nat) (authority : Bool) :
    discipline.Sat k (prepare k sqliteVersion authority)
      (fun store t => t.holding k = Holding.boundUnder .exclusive store)
      (fun _ t => t.holding k = Holding.gateOnly .exclusive) s := by
  have closes : ∀ h, Empty .exclusive h →
      [LockFile.lease, .owner].foldl (·.setLock · .free) h = Holding.gateOnly .exclusive ∧
      [LockFile.owner, .lease].foldl (·.setLock · .free) h = Holding.gateOnly .exclusive := by
    intro h empty
    obtain ⟨gate, lease, owner, store, migrating⟩ := h
    obtain ⟨gate_held, -, no_store, idle⟩ := empty
    cases gate_held
    cases no_store
    cases idle
    exact ⟨rfl, rfl⟩
  unfold prepare
  apply Discipline.Sat.bind inv (sat_look (F := (· = Holding.gateOnly .exclusive)) known rfl)
  intro _ t inv under
  apply Discipline.Sat.bind inv (sat_look (F := (· = Holding.gateOnly .exclusive)) under rfl)
  intro _ t inv under
  have acquires : discipline.Sat k
      (do
        if ← tryOwner k then
          let generation ← prepareOwned k sqliteVersion
          return (generation, true)
        else
          let generation ← prepareSecondary k sqliteVersion authority
          return (generation, false))
      (fun (acquired : String × Bool) t => ∃ own', Entitled k own' acquired.1 acquired.2 ∧
        Under k (Holding.preparing .shared (if acquired.2 then .exclusive else .free))
          acquired.1 own' t)
      (fun _ t => Empty .exclusive (t.holding k)) t := by
    apply Discipline.Sat.bind inv
      (sat_tryOwner under empty_secondary rfl rfl
        (owner_sound .free))
    intro free t inv found
    cases free with
    | true =>
        rw [if_pos rfl] at found ⊢
        apply Discipline.Sat.bind inv (sat_prepareOwned found inv sqliteVersion)
        exact fun _ _ _ ready => Discipline.sat_pure stable_entitled ready
    | false =>
        simp only [Bool.false_eq_true, if_false] at found ⊢
        obtain ⟨p, generation, under⟩ := found
        apply Discipline.Sat.bind inv
          (sat_prepareSecondary under inv rfl generation sqliteVersion authority)
        exact fun _ _ _ ready => Discipline.sat_pure stable_entitled ready
  apply Discipline.Sat.bind inv
    (sat_guarding inv (by decide) (fun h empty => (closes h empty).1)
      (fun _ => stable_entitled) acquires)
  intro acquired t inv ready
  obtain ⟨generation, primary⟩ := acquired
  obtain ⟨own', entitled, under⟩ := ready
  have empty : Empty .exclusive
      (Holding.preparing .shared (if primary then .exclusive else .free)) := by
    cases primary with
    | true => exact empty_owner
    | false => exact empty_secondary
  apply sat_guarding inv (by decide) (fun h empty => (closes h empty).2)
    fun store => stable_holding (F := (· = Holding.boundUnder .exclusive store))
  apply Discipline.Sat.bind inv (sat_fileIdentity under empty)
  intro identity t inv under
  have sound : ({ Holding.preparing .shared (if primary then .exclusive else .free) with
      store := some ⟨identity, generation, primary⟩ } : Holding).Sound := by
    cases primary <;> constructor <;> simp [Holding.preparing]
  apply (sat_bind under inv empty nofun (entitled.identified identity) identity sound).weaken
  · intro store t _ bound
    obtain ⟨same, holding⟩ := bound
    rw [holding, ← same]
    rfl
  · exact fun _ _ _ empty => empty

theorem Holding.live_sound (store : PreparedStore) : (Holding.live store).Sound := by
  cases primary : store.primary <;> constructor <;> simp [Holding.live, primary]

theorem Holding.gateOnly_sound (mode : Mode) : (Holding.gateOnly mode).Sound := by
  constructor <;> nofun

theorem leaves_gate {h left : Holding} {t : StoreFiles} (inv : Invariant t)
    (held : t.holding k = h) (after : h.setLock .gate .free = left) (sound : left.Sound) :
    discipline.Allows k t (t.unlock k .gate) ∧ (t.unlock k .gate).holding k = left := by
  constructor
  · exact allows_unlock inv (by rwa [held, after])
  · rw [StoreFiles.holding_unlock_self, held, after]

theorem sat_initializeStore (idle : s.holding k = Holding.idle) (inv : Invariant s)
    (sqliteVersion : Nat) (authority : Bool) :
    discipline.Sat k (initializeStore k sqliteVersion authority)
      (fun store t => t.holding k = Holding.live store)
      (fun _ t => t.holding k = Holding.idle) s := by
  have known := under_self (k := k) (s := s)
  rw [idle] at known
  have begins : discipline.Sat k (begin k)
      (fun _ t => ∃ text, Under k (Holding.gateOnly .exclusive) text (s.own k) t)
      (fun _ t => t.holding k = Holding.idle) s := by
    unfold begin
    apply Discipline.Sat.bind inv (sat_look (F := (· = Holding.idle)) known rfl)
    intro _ t inv under
    apply Discipline.Sat.bind inv (sat_look (F := (· = Holding.idle)) under rfl)
    intro _ t inv under
    apply (sat_exclusive (F := (· = Holding.idle)) .gate under rfl
      (Holding.gateOnly_sound .exclusive)).weaken
    · exact fun _ _ _ ⟨text, _, taken⟩ => ⟨text, taken⟩
    · exact fun _ _ _ held => held
  unfold initializeStore
  apply Discipline.Sat.bind inv begins
  intro _ t inv taken
  obtain ⟨text, under⟩ := taken
  have prepares : discipline.Sat k
      (do
        if authority then
          call fun s => (.ok (), s)
        prepare k sqliteVersion authority)
      (fun store t => t.holding k = Holding.boundUnder .exclusive store)
      (fun _ t => t.holding k = Holding.gateOnly .exclusive) t := by
    cases authority with
    | true =>
        apply Discipline.Sat.bind inv
          (sat_look (F := (· = Holding.gateOnly .exclusive)) under rfl)
        exact fun _ _ inv under => sat_prepare under inv sqliteVersion true
    | false => exact sat_prepare under inv sqliteVersion false
  apply prepares.releasing
  · exact fun store => stable_holding (F := (· = Holding.live store))
  · exact fun _ => stable_holding (F := (· = Holding.idle))
  · exact fun store t inv held => leaves_gate inv held rfl (Holding.live_sound store)
  · exact fun _ t inv held => leaves_gate inv held rfl (Holding.gateOnly_sound .free)

end Preparation

/-! ## Attachment -/

section Attachment

variable {k : Holder} {text : String} {own : List Moment} {s : StoreFiles}

def Holding.attaching (lease : Mode) : Holding :=
  ⟨.shared, lease, .free, none, false⟩

theorem empty_attaching {lease : Mode} : Empty .shared (Holding.attaching lease) :=
  ⟨rfl, .inl rfl, rfl, rfl⟩

theorem attaching_sound (lease : Mode) : (Holding.attaching lease).Sound :=
  empty_attaching.sound

theorem sat_attachUnderGate (known : Under k (Holding.gateOnly .shared) text own s)
    (inv : Invariant s) (sqliteVersion : Nat) :
    discipline.Sat k (attachUnderGate k sqliteVersion)
      (fun store t => t.holding k = Holding.boundUnder .shared store)
      (fun _ t => t.holding k = Holding.gateOnly .shared) s := by
  have closes : ∀ h, Empty .shared h →
      [LockFile.lease].foldl (·.setLock · .free) h = Holding.gateOnly .shared := by
    intro h empty
    obtain ⟨gate, lease, owner, store, migrating⟩ := h
    obtain ⟨gate_held, no_owner, no_store, idle⟩ := empty
    cases gate_held
    cases no_store
    cases idle
    cases no_owner with
    | inl free =>
        cases free
        rfl
    | inr owned => exact absurd owned.1 (by decide)
  unfold attachUnderGate
  apply Discipline.Sat.bind inv
    (sat_requirePrimary (F := (· = Holding.gateOnly .shared)) known inv rfl rfl nofun)
  intro _ t inv found
  obtain ⟨p, -, under⟩ := found
  apply Discipline.Sat.bind inv (sat_look (F := (· = Holding.gateOnly .shared)) under rfl)
  intro _ t inv under
  apply sat_guarding inv (by decide) closes
    fun store => stable_holding (F := (· = Holding.boundUnder .shared store))
  apply Discipline.Sat.bind inv (sat_shared .lease under empty_attaching
    (attaching_sound .shared))
  intro _ t inv taken
  obtain ⟨record, same, under⟩ := taken
  rw [same nofun] at under
  change Under k (Holding.attaching .shared) text _ t at under
  apply Discipline.Sat.bind inv (sat_fileIdentity under empty_attaching)
  intro identity t inv under
  apply Discipline.Sat.bind inv (sat_readRecord under empty_attaching nofun identity)
  intro read t inv reads
  obtain ⟨same, under⟩ := reads
  subst same
  apply Discipline.Sat.bind inv (sat_connection under inv empty_attaching sqliteVersion true)
  intro _ t inv under
  apply Discipline.Sat.bind inv (sat_requirePrimary under inv empty_attaching rfl nofun)
  intro _ t inv found
  obtain ⟨q, generation, under⟩ := found
  have sound : ({ Holding.attaching .shared with
      store := some ⟨identity, read, false⟩ } : Holding).Sound := by
    constructor <;> simp [Holding.attaching]
  apply (sat_bind under inv empty_attaching nofun (.attached .probed rfl generation) identity
    sound).weaken
  · intro store t _ bound
    obtain ⟨consumer, holding⟩ := bound
    rw [holding]
    simp [Holding.attaching, Holding.boundUnder, Holding.live, consumer]
  · exact fun _ _ _ empty => empty

theorem sat_underSharedGate (known : Under k (Holding.gateOnly .shared) text own s)
    (inv : Invariant s) (sqliteVersion : Nat) :
    discipline.Sat k ((attachUnderGate k sqliteVersion).releasing (·.unlock k .gate))
      (fun store t => t.holding k = Holding.live store)
      (fun _ t => t.holding k = Holding.idle) s := by
  apply (sat_attachUnderGate known inv sqliteVersion).releasing
  · exact fun store => stable_holding (F := (· = Holding.live store))
  · exact fun _ => stable_holding (F := (· = Holding.idle))
  · exact fun store t inv held => leaves_gate inv held rfl (Holding.live_sound store)
  · exact fun _ t inv held => leaves_gate inv held rfl (Holding.gateOnly_sound .free)

theorem sat_attach (idle : s.holding k = Holding.idle) (inv : Invariant s)
    (sqliteVersion : Nat) :
    discipline.Sat k (attach k sqliteVersion) (fun store t => t.holding k = Holding.live store)
      (fun _ t => t.holding k = Holding.idle) s := by
  have known := under_self (k := k) (s := s)
  rw [idle] at known
  unfold attach
  apply Discipline.Sat.bind inv (sat_look (F := (· = Holding.idle)) known rfl)
  intro _ t inv under
  apply Discipline.Sat.bind inv (sat_look (F := (· = Holding.idle)) under rfl)
  intro _ t inv under
  apply Discipline.Sat.bind inv (sat_shared (F := (· = Holding.idle)) .gate under rfl
    (Holding.gateOnly_sound .shared))
  intro _ t inv taken
  obtain ⟨text, -, under⟩ := taken
  exact sat_underSharedGate under inv sqliteVersion

theorem sat_askGate (idle : s.holding k = Holding.idle) (inv : Invariant s)
    (sqliteVersion : Nat) {refused : StoreError → StoreStep PreparedStore}
    (later : ∀ e t, Invariant t → t.holding k = Holding.idle →
      discipline.Sat k (refused e) (fun store t => t.holding k = Holding.live store)
        (fun _ t => t.holding k = Holding.idle) t) :
    discipline.Sat k (askGate k sqliteVersion refused)
      (fun store t => t.holding k = Holding.live store)
      (fun _ t => t.holding k = Holding.idle) s := by
  have known := under_self (k := k) (s := s)
  rw [idle] at known
  have asks : discipline.Sat k (shared k .gate).attempt
      (fun result t =>
        match result with
        | .ok _ => ∃ text, Under k (Holding.gateOnly .shared) text (s.own k) t
        | .error _ => t.holding k = Holding.idle)
      (fun _ t => t.holding k = Holding.idle) s := by
    apply Discipline.Sat.attempt
    apply (sat_shared (F := (· = Holding.idle)) .gate known rfl
      (Holding.gateOnly_sound .shared)).weaken
    · exact fun _ _ _ ⟨text, _, taken⟩ => ⟨text, taken⟩
    · exact fun _ _ _ held => held
  unfold askGate
  apply Discipline.Sat.bind inv asks
  intro result t inv asked
  cases result with
  | ok _ =>
      obtain ⟨text, under⟩ := asked
      exact sat_underSharedGate under inv sqliteVersion
  | error e => exact later e t inv asked

theorem sat_attachPolling (idle : s.holding k = Holding.idle) (inv : Invariant s)
    (sqliteVersion polls : Nat) :
    discipline.Sat k (attachPolling k sqliteVersion polls)
      (fun store t => t.holding k = Holding.live store)
      (fun _ t => t.holding k = Holding.idle) s := by
  have gives_up := stable_holding (k := k) (F := (· = Holding.idle))
  induction polls generalizing s with
  | zero =>
      apply sat_askGate idle inv
      exact fun _ _ _ held => Discipline.sat_fail gives_up held
  | succ polls ih =>
      apply sat_askGate idle inv
      intro e t inv held
      by_cases contention : isContention e = true
      · rw [if_pos contention]
        exact ih held inv
      · rw [if_neg contention]
        exact Discipline.sat_fail gives_up held

end Attachment

end DocumentSummarizer.Pipeline.Lifecycle
