import Mathlib.Data.List.Forall2
import DocumentSummarizer.Connect.PackageControl

/-! # Participants and their effects

An operation changes its participants only in their runtime identity, once, and
in their settlement.  Such a change keeps a list valid and its records readable.
-/

namespace DocumentSummarizer.Connect

open Library

/-- The same participant, with a missing runtime identity perhaps filled in. -/
inductive Participant.Refreshed (p : Participant) : Participant → Prop where
  | same : p.Refreshed p
  | filled (device inode : UInt64) (missing : p.runtimeDevice = none) :
      p.Refreshed { p with runtimeDevice := some device, runtimeInode := some inode }

/-- The same participant, refreshed and perhaps settled. -/
def Participant.Same (p q : Participant) : Prop :=
  ∃ r settlement, p.Refreshed r ∧ q = { r with settlement := settlement }

abbrev Refreshed : List Participant → List Participant → Prop :=
  List.Forall₂ Participant.Refreshed

abbrev SameParticipants : List Participant → List Participant → Prop :=
  List.Forall₂ Participant.Same

namespace Participant

theorem Refreshed.trans {p q r : Participant} (left : p.Refreshed q) (right : q.Refreshed r) :
    p.Refreshed r := by
  cases left with
  | same => exact right
  | filled device inode missing =>
      cases right with
      | same => exact .filled device inode missing
      | filled _ _ absent => cases absent

theorem Refreshed.same_participant {p q : Participant} (h : p.Refreshed q) : p.Same q :=
  ⟨q, q.settlement, h, rfl⟩

theorem Same.refl (p : Participant) : p.Same p :=
  ⟨p, p.settlement, .same, rfl⟩

theorem Same.settle (p : Participant) (settlement : ParticipantSettlement) :
    p.Same { p with settlement := settlement } :=
  ⟨p, settlement, .same, rfl⟩

theorem Same.trans {p q r : Participant} (left : p.Same q) (right : q.Same r) : p.Same r := by
  obtain ⟨p', first, refreshed, rfl⟩ := left
  obtain ⟨q', second, further, rfl⟩ := right
  cases further with
  | same => exact ⟨p', second, refreshed, rfl⟩
  | filled device inode missing =>
      exact ⟨_, second, refreshed.trans (.filled device inode missing), rfl⟩

theorem Same.uid {p q : Participant} (h : p.Same q) : q.uid = p.uid := by
  obtain ⟨r, settlement, refreshed, rfl⟩ := h
  cases refreshed <;> rfl

theorem Same.validIdentity {p q : Participant} (h : p.Same q)
    (valid : invalidRuntimeIdentity p = false) : invalidRuntimeIdentity q = false := by
  obtain ⟨r, settlement, refreshed, rfl⟩ := h
  cases refreshed with
  | same => exact valid
  | filled => rfl

end Participant

namespace Refreshed

theorem refl (ps : List Participant) : Refreshed ps ps :=
  List.forall₂_same.mpr fun _ _ => .same

theorem trans {ps qs rs : List Participant} (left : Refreshed ps qs) (right : Refreshed qs rs) :
    Refreshed ps rs := by
  induction left generalizing rs with
  | nil => exact right
  | cons head _ ih =>
      cases right with
      | cons next rest => exact .cons (head.trans next) (ih rest)

theorem sameParticipants {ps qs : List Participant} (h : Refreshed ps qs) :
    SameParticipants ps qs :=
  h.imp fun _ _ => Participant.Refreshed.same_participant

theorem middle {p q : Participant} (done rest : List Participant) (h : p.Refreshed q) :
    Refreshed (done ++ p :: rest) (done ++ q :: rest) :=
  List.rel_append (refl done) (.cons h (refl rest))

end Refreshed

namespace SameParticipants

theorem refl (ps : List Participant) : SameParticipants ps ps :=
  List.forall₂_same.mpr fun p _ => .refl p

theorem trans {ps qs rs : List Participant} (left : SameParticipants ps qs)
    (right : SameParticipants qs rs) : SameParticipants ps rs := by
  induction left generalizing rs with
  | nil => exact right
  | cons head _ ih =>
      cases right with
      | cons next rest => exact .cons (head.trans next) (ih rest)

theorem middle {p q : Participant} (done rest : List Participant) (h : p.Same q) :
    SameParticipants (done ++ p :: rest) (done ++ q :: rest) :=
  List.rel_append (refl done) (.cons h (refl rest))

theorem settleAll (ps : List Participant) (settlement : ParticipantSettlement) :
    SameParticipants ps (ps.map fun p => { p with settlement := settlement }) := by
  induction ps with
  | nil => exact .nil
  | cons p ps ih => exact .cons (.settle p settlement) ih

theorem uids {ps qs : List Participant} (h : SameParticipants ps qs) :
    qs.map (·.uid) = ps.map (·.uid) := by
  induction h with
  | nil => rfl
  | cons head _ ih => simp only [List.map_cons, head.uid, ih]

theorem valid {ps qs : List Participant} (h : SameParticipants ps qs)
    (valid : validParticipants ps = true) : validParticipants qs = true := by
  simp only [validParticipants, Bool.and_eq_true, Bool.not_eq_true'] at valid ⊢
  refine ⟨h.uids ▸ valid.1, ?_⟩
  have whole := valid.2
  clear valid
  induction h with
  | nil => rfl
  | cons head _ ih =>
      simp only [List.any_cons, Bool.or_eq_false_iff] at whole ⊢
      exact ⟨head.validIdentity whole.1, ih whole.2⟩

end SameParticipants

/-! ## Trusted participants -/

def InBounds (bytes : Nat) : Prop :=
  0 < bytes ∧ bytes ≤ maxRecordBytes

/-- The header of a record as the code writes it. -/
structure PackageRecord.WellFormed (platform : Platform) (record : PackageRecord) : Prop where
  format : record.formatVersion = Connect.formatVersion
  package : record.packageId = Connect.packageId
  generation : platform.isUuid record.generation = true
  source : validVersion record.sourceVersion = true
  target : validVersion record.targetVersion = true
  predecessor : ∀ g, record.predecessorRemovalGeneration = some g → platform.isUuid g = true

structure RemovalReceipt.WellFormed (platform : Platform) (receipt : RemovalReceipt) : Prop where
  format : receipt.formatVersion = Connect.formatVersion
  package : receipt.packageId = Connect.packageId
  producer : platform.isUuid receipt.producerGeneration = true
  removed : validVersion receipt.removedVersion = true

structure InstallReceipt.WellFormed (platform : Platform) (receipt : InstallReceipt) : Prop where
  format : receipt.formatVersion = Connect.formatVersion
  package : receipt.packageId = Connect.packageId
  generation : platform.isUuid receipt.installGeneration = true
  predecessor : platform.isUuid receipt.predecessorRemovalGeneration = true
  installed : validVersion receipt.installedVersion = true

/-- A participant list as discovery returns it: ordered, with whole identities, and small
enough for the files that carry it. -/
structure Trusted (platform : Platform) (participants : List Participant) : Prop where
  valid : validParticipants participants = true
  record : ∀ record : PackageRecord, record.WellFormed platform →
    SameParticipants participants record.participants → InBounds (platform.recordBytes record)
  removalReceipt : ∀ receipt : RemovalReceipt, receipt.WellFormed platform →
    SameParticipants participants receipt.participants →
    InBounds (platform.removalReceiptBytes receipt)
  installReceipt : ∀ receipt : InstallReceipt, receipt.WellFormed platform →
    SameParticipants participants receipt.participants →
    InBounds (platform.installReceiptBytes receipt)

theorem Trusted.same {platform : Platform} {ps qs : List Participant} (h : Trusted platform ps)
    (same : SameParticipants ps qs) : Trusted platform qs where
  valid := same.valid h.valid
  record record header later := h.record record header (same.trans later)
  removalReceipt receipt header later := h.removalReceipt receipt header (same.trans later)
  installReceipt receipt header later := h.installReceipt receipt header (same.trans later)

theorem Trusted.sized {platform : Platform} {record : PackageRecord}
    (h : Trusted platform record.participants) (header : record.WellFormed platform) :
    Sized platform.recordBytes (some record) := by
  intro other same
  obtain rfl := Option.some.inj same
  exact h.record record header (.refl _)

/-! ## Environments -/

/-- Every effect of the run succeeds. -/
structure Effects.Succeed (effects : Effects) : Prop where
  discover : ∃ participants, effects.discover = .ok participants
  stop : ∀ p, effects.stop p = .ok ()
  suppress : ∀ p, effects.suppress p = .ok ()
  restore : ∀ p generation, ∃ settlement, effects.restore p generation = .ok settlement
  recoverPendingRestore : ∀ p generation,
    ∃ recovery, effects.recoverPendingRestore p generation = .ok recovery
  validateRestored : ∀ p generation settlement,
    effects.validateRestored p generation settlement = .ok ()
  cleanup : ∀ p, effects.cleanup p = .ok ()
  refreshRuntimeIdentity : ∀ p, ∃ identity, effects.refreshRuntimeIdentity p = .ok identity
  copyController : ∀ record, effects.copyController record = .ok ()
  lockParticipantAuthorities : ∀ ps, effects.lockParticipantAuthorities ps = .ok ()
  removeParticipantReceipts : effects.removeParticipantReceipts = .ok ()

/-- Discovery, when it succeeds, returns a trusted list. -/
def Effects.Discovering (platform : Platform) (effects : Effects) : Prop :=
  ∀ participants, effects.discover = .ok participants → Trusted platform participants

/-! ## Effects in a program -/

section Programs

variable {env : Environment} {stopped : PackageStore → Prop} {store : PackageStore}

/-- A program fails only when an effect does. -/
abbrev Unsuccessful (env : Environment) : PackageControlError → PackageStore → Prop :=
  fun _ _ => ¬ env.effects.Succeed

theorem refreshRuntime_meets {record : PackageRecord} {done rest : List Participant}
    {participant : Participant} (absent : .record record.generation ∉ store.temporaries)
    (draft : stopped ((store.withRecord
      { record with participants := done ++ participant :: rest }).draft
        (.record record.generation)))
    (written : ∀ q, participant.Refreshed q →
      stopped (store.withRecord { record with participants := done ++ q :: rest })) :
    Durable.Meets (refreshRuntime env record done participant rest)
      (store.withRecord { record with participants := done ++ participant :: rest })
      (fun q t => participant.Refreshed q ∧
        t = store.withRecord { record with participants := done ++ q :: rest })
      (Unsuccessful env) stopped := by
  unfold refreshRuntime
  by_cases missing : participant.runtimeDevice = none
  · simp only [missing, Option.isNone_none, if_true, Durable.meets_bind, Durable.meets_lift]
    constructor
    · intro identity _
      cases identity with
      | none =>
          exact Durable.meets_pure.mpr ⟨.same, rfl⟩
      | some identity =>
          have filled : participant.Refreshed _ := .filled identity.1 identity.2 missing
          simp only [Durable.meets_bind]
          refine (meets_write ?_).mpr ⟨?_, ?_, ?_⟩
          · exact absent
          · exact draft
          · exact written _ filled
          · simp only [Durable.meets_pure]
            exact ⟨filled, rfl⟩
    · intro e failure succeed
      obtain ⟨identity, success⟩ := succeed.refreshRuntimeIdentity participant
      rw [success] at failure
      cases failure
  · have isSome : participant.runtimeDevice.isNone = false := by
      cases found : participant.runtimeDevice with
      | none => exact absurd found missing
      | some _ => rfl
    simp only [isSome, Bool.false_eq_true, if_false]
    exact Durable.meets_pure.mpr ⟨.same, rfl⟩

theorem effect_meets {effect : Except PackageControlError Unit}
    {post : Unit → PackageStore → Prop}
    (succeeds : env.effects.Succeed → effect = .ok ()) (after : post () store) :
    Durable.Meets (Durable.lift effect) store post (Unsuccessful env) stopped := by
  refine Durable.meets_lift.mpr ⟨fun _ _ => after, ?_⟩
  intro e failure succeed
  rw [succeeds succeed] at failure
  cases failure

end Programs

end DocumentSummarizer.Connect
