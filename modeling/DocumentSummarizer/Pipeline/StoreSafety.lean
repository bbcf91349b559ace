import DocumentSummarizer.Pipeline.StoreBootstrap

/-! # One primary, and no migration beside a Store

Every interleaving of calls keeps the discipline, so every reachable state keeps
the invariant, and the log tells what it found.
-/

namespace DocumentSummarizer.Pipeline.Lifecycle

open Library

section Programs

variable {k : Holder} {s : StoreFiles}

theorem sat_session {acquire : StoreStep PreparedStore} (inv : Invariant s)
    (acquires : discipline.Sat k acquire (fun store t => t.holding k = Holding.live store)
      (fun _ t => t.holding k = Holding.idle) s) (sqliteVersion : Nat) (uses : List Use) :
    discipline.Sat k
      (do
        let store ← acquire
        useAll k sqliteVersion store uses
        dropStore k store)
      (fun _ _ => True) (fun _ _ => True) s := by
  apply Discipline.Sat.bind inv (acquires.weaken (fun _ _ _ held => held) fun _ _ _ _ => trivial)
  intro store t inv live
  have quiet : (t.holding k).gate = .free ∧ (t.holding k).owner ≠ .shared := by
    rw [live]
    refine ⟨rfl, ?_⟩
    cases primary : store.primary <;> simp [Holding.live, primary]
  apply Discipline.Sat.bind inv ((sat_useAll inv quiet.1 quiet.2 sqliteVersion uses).weaken
    (fun _ _ _ held => held) fun _ _ _ _ => trivial)
  intro _ u inv same
  apply (sat_dropStore inv (same.trans live)).weaken
  · exact fun _ _ _ _ => trivial
  · exact fun _ _ _ _ => trivial

theorem sat_replace (database : FileIdentity) :
    discipline.Sat k (.atomic fun _ s => (.ok (), { s with database := database }) :
      StoreStep Unit) (fun _ _ => True) (fun _ _ => True) s := by
  apply Discipline.sat_atomic Discipline.stable_const trivial
    (fun _ => Discipline.stable_const) fun _ => Discipline.stable_const
  intro _ t inv _
  refine ⟨?_, trivial⟩
  apply allows_of inv
  · exact fun _ _ => rfl
  · exact .inl rfl
  · exact .inl rfl
  · exact inv.holdings k
  · exact fun store live => ⟨inv.readiness k store live, inv.bound k store live⟩

theorem sat_program (inv : Invariant s) (idle : s.holding k = Holding.idle)
    (sqliteVersion : Nat) (request : Request) :
    discipline.Sat k (program sqliteVersion request k) (fun _ _ => True) (fun _ _ => True) s := by
  cases request with
  | prepare authority uses =>
      exact sat_session inv (sat_initializeStore idle inv sqliteVersion authority) _ uses
  | attach uses => exact sat_session inv (sat_attach idle inv sqliteVersion) _ uses
  | attachWait polls uses =>
      have waits : discipline.Sat k (attachWait k sqliteVersion polls)
          (fun store t => t.holding k = Holding.live store)
          (fun _ t => t.holding k = Holding.idle) s := by
        have known := under_self (k := k) (s := s)
        rw [idle] at known
        unfold attachWait
        apply Discipline.Sat.bind inv (sat_look (F := (· = Holding.idle)) known rfl)
        intro _ t inv under
        apply Discipline.Sat.bind inv (sat_look (F := (· = Holding.idle)) under rfl)
        exact fun _ _ inv under => sat_attachPolling under.holding inv sqliteVersion polls
      exact sat_session inv waits _ uses
  | share store uses =>
      have quiet : (s.holding k).gate = .free ∧ (s.holding k).owner ≠ .shared := by
        rw [idle]
        exact ⟨rfl, nofun⟩
      apply (sat_useAll inv quiet.1 quiet.2 sqliteVersion uses).weaken
      · exact fun _ _ _ _ => trivial
      · exact fun _ _ _ _ => trivial
  | replace database => exact sat_replace database

end Programs

/-- Every program keeps the discipline, and so does the end of a process. -/
theorem calls_keep (sqliteVersion : Nat) :
    (calls sqliteVersion).Keeps discipline (fun k s => s.holding k = Holding.idle)
      (fun _ _ _ _ => True) (fun _ _ _ _ => True) where
  idle_stable _ := stable_holding (F := (· = Holding.idle))
  released := by
    intro k s inv
    refine ⟨?_, StoreFiles.holding_releaseAll_self⟩
    change discipline.Allows k s (s.releaseAll k)
    apply allows_of inv
    · exact fun j other => StoreFiles.holding_releaseAll_other other
    · exact .inl rfl
    · exact .inl rfl
    · rw [StoreFiles.holding_releaseAll_self]
      exact Holding.sound_none
    · intro store live
      have none_live := congrArg Holding.store (StoreFiles.holding_releaseAll_self (s := s) (k := k))
      exact absurd (live.symm.trans none_live) nofun
  programs := fun request k s inv idle => sat_program inv idle sqliteVersion request

theorem invariant_of_atRest {s : StoreFiles} (rest : AtRest s) :
    Invariant s ∧ ∀ k, s.holding k = Holding.idle := by
  have idle : ∀ k, s.holding k = Holding.idle := by
    intro k
    simp only [StoreFiles.holding, rest.locks, rest.stores, rest.migrating]
    rfl
  refine ⟨⟨?_, ?_, ?_, ?_⟩, idle⟩
  · intro k
    rw [idle]
    exact Holding.sound_none
  · intro k store live
    rw [rest.stores] at live
    cases live
  · intro k store live
    rw [rest.stores] at live
    cases live
  · rw [rest.log]
    exact .nil

/-- What holds in every reachable state. -/
structure Owned (s : StoreFiles) : Prop where
  /-- A live primary Store holds the primary lock, and there is one at most. -/
  one_primary : ∀ j store, s.stores j = some store → store.primary = true →
    (s.locks .owner).exclusive = some j ∧
      ∀ k other, s.stores k = some other → other.primary = true → k = j
  /-- No Store is alive while a call migrates. -/
  alone : ∀ k, s.migrating = some k → ∀ j, s.stores j = none
  /-- A consumer's Store carries the generation of a primary that its call had just met. -/
  accepted : ∀ k store, Moment.bound k store ∈ s.log → store.primary = false →
    ∃ p front moments, Begun s.log p ∧ p.2.generation = store.generation ∧ Met k p moments ∧
      (front ++ moments ++ [Moment.bound k store]).IsPrefix (s.own k)
  /-- A lock in use was held for a live primary Store. -/
  truthful : ∀ moment ∈ s.log, ∀ primary, moment.finding = some primary →
    ∃ p, primary = some p ∧ Begun s.log p
  /-- A connection was opened between two meetings of the primary of the Store's generation. -/
  opened : ∀ k store connection, Moment.opened k store connection ∈ s.log →
    ∃ p front, Begun s.log p ∧ p.2.generation = store.generation ∧
      (front ++ window k p store.identity connection ++
        [Moment.opened k store connection]).IsPrefix (s.own k)
  /-- The generation tells the primary. -/
  generations : (s.log.filterMap Moment.begins).Nodup

theorem own_prefix {s : StoreFiles} {before after : List Moment} {moment : Moment}
    (split : s.log = before ++ moment :: after) :
    (before.filter (·.holder = moment.holder) ++ [moment]).IsPrefix (s.own moment.holder) := by
  refine ⟨after.filter (·.holder = moment.holder), ?_⟩
  rw [StoreFiles.own, split, List.filter_append, List.filter_cons_of_pos (by simp)]
  simp

theorem Begun.later {before after : List Moment} {p : Holder × PreparedStore}
    (begun : Begun before p) : Begun (before ++ after) p :=
  ⟨List.mem_append_left _ begun.1, begun.2⟩

theorem Invariant.owned {s : StoreFiles} (inv : Invariant s) : Owned s where
  one_primary := by
    intro j store live primary
    have owns : ∀ k other, s.stores k = some other → other.primary = true →
        (s.locks .owner).exclusive = some k := fun k other live primary =>
      FileLock.mode_exclusive_iff.mp ((inv.holdings k).primary other live primary)
    refine ⟨owns j store live primary, ?_⟩
    intro k other live' primary'
    exact Option.some.inj ((owns k other live' primary').symm.trans (owns j store live primary))
  alone := by
    intro k migrates j
    have migrating : (s.holding k).migrating = true := by simp [StoreFiles.holding, migrates]
    obtain ⟨-, lease, owner, no_store⟩ := (inv.holdings k).migrating migrating
    by_cases same : j = k
    · subst same
      exact no_store
    cases live : s.stores j with
    | none => rfl
    | some store =>
        -- a primary keeps its own lock, and a consumer shares the lease
        cases primary : store.primary with
        | true =>
            have kept := (inv.holdings j).primary store live primary
            have free := StoreFiles.holding_free .owner owner same
            exact absurd (kept.symm.trans free) (by decide)
        | false =>
            have kept := (inv.holdings j).attached store live primary
            have free := StoreFiles.holding_free .lease lease same
            exact absurd (kept.symm.trans free) (by decide)
  accepted := by
    intro k store mem consumer
    obtain ⟨before, after, split, faithful, follows⟩ := inv.log.followed mem
    cases follows with
    | primary owned => simp [consumer] at owned
    | @attached _ _ p front moments _ met own generation =>
        obtain ⟨moment, found, finding⟩ := met.found
        have seen : moment ∈ before.filter (·.holder = k) := by
          rw [own]
          exact List.mem_append_right _ found
        obtain ⟨q, same, begun⟩ :=
          faithful.begun_of_finding (List.mem_filter.mp seen).1 finding
        cases same
        refine ⟨p, front, moments, ?_, generation, met, ?_⟩
        · rw [split]
          exact begun.later
        · rw [← own]
          exact own_prefix split
  truthful := fun moment mem primary finding => inv.log.begun_of_finding mem finding
  opened := by
    intro k store connection mem
    obtain ⟨before, after, split, faithful, follows⟩ := inv.log.followed mem
    cases follows with
    | @opened _ _ _ p front generation own =>
        have seen : .probed k (some p) ∈ before.filter (·.holder = k) := by
          rw [own]
          exact List.mem_append_right _ List.mem_cons_self
        have finding : (Moment.probed k (some p)).finding = some (some p) := rfl
        obtain ⟨q, same, begun⟩ :=
          faithful.begun_of_finding (List.mem_filter.mp seen).1 finding
        cases same
        refine ⟨p, front, ?_, generation, ?_⟩
        · rw [split]
          exact begun.later
        · rw [← own]
          exact own_prefix split
  generations := inv.log.generations_nodup

/-- In every interleaving of calls, from any files that nobody had open. -/
theorem store_ownership (sqliteVersion : Nat) {c : Configuration StoreFiles Answer StoreError
    Unit Request Holder} (h : ((calls sqliteVersion).machine AtRest).Reachable c) :
    Owned c.state :=
  ((calls_keep sqliteVersion).sound (fun _ => invariant_of_atRest) h).inv.owned

def sampleAnswer : Answer :=
  ⟨none, ⟨"11111111-1111-4111-8111-111111111111", by decide⟩, 7⟩

def freshFiles : Configuration StoreFiles Answer StoreError Unit Request Holder where
  state := ⟨fun _ => .unlocked, "", (1, 2), none, fun _ => none, []⟩
  running _ := none

/-- A primary is prepared, and a consumer attaches to it and opens a reader. -/
def consumerBesidePrimary : List (Processes.Turn Answer Request Holder) :=
  .spawn 0 (.prepare true []) :: (List.replicate 25 (.step 0 sampleAnswer) ++
    .spawn 1 (.attach [.reader]) :: List.replicate 35 (.step 1 sampleAnswer))

def sampleStore (primary : Bool) : PreparedStore :=
  ⟨(1, 2), "docsum-store-v2:1:2:22:11111111-1111-4111-8111-111111111111", primary⟩

private theorem consumer_reads :
    ((calls 3051003).follow consumerBesidePrimary freshFiles).map (fun c =>
      (c.state.stores 0, c.state.stores 1, c.state.log.getLast?)) =
      some (some (sampleStore true), some (sampleStore false),
        some (.opened 1 (sampleStore false) ⟨true, (1, 2)⟩)) := by
  decide +kernel

theorem consumer_beside_primary_owned :
    ∃ c, ((calls 3051003).machine AtRest).Reachable c ∧ Owned c.state ∧
      c.state.stores 0 = some (sampleStore true) ∧ c.state.stores 1 = some (sampleStore false) ∧
      c.state.log.getLast? = some (.opened 1 (sampleStore false) ⟨true, (1, 2)⟩) := by
  obtain ⟨c, reached, facts⟩ := Option.map_eq_some_iff.mp consumer_reads
  simp only [Prod.mk.injEq] at facts
  have fresh : ((calls 3051003).machine AtRest).Reachable freshFiles :=
    .of_init ⟨⟨fun _ => rfl, rfl, fun _ => rfl, rfl⟩, fun _ => rfl⟩
  have reachable := Processes.follow_reachable fresh reached
  exact ⟨c, reachable, store_ownership 3051003 reachable, facts⟩

end DocumentSummarizer.Pipeline.Lifecycle
