import Mathlib.Logic.Basic

/-! # Programs over durable storage

A program runs from a durable state and passes through further ones, each of
which survives a crash.  `Meets` says in one judgment what holds when the
program returns, when it fails and wherever it is stopped; its rules compute it
along the program.
-/

namespace DocumentSummarizer.Library

universe u

/-- One attempt: the durable states it passed through, how it ended and where. -/
structure Attempt (σ ε α : Type u) where
  visited : List σ
  outcome : Except ε α
  last : σ

def Durable (σ ε α : Type u) : Type u :=
  σ → Attempt σ ε α

namespace Durable

variable {σ ε α β : Type u}

def pure (a : α) : Durable σ ε α := fun s =>
  ⟨[], .ok a, s⟩

def bind (m : Durable σ ε α) (k : α → Durable σ ε β) : Durable σ ε β := fun s =>
  match (m s).outcome with
  | .ok a =>
    let rest := k a (m s).last
    ⟨(m s).visited ++ rest.visited, rest.outcome, rest.last⟩
  | .error e => ⟨(m s).visited, .error e, (m s).last⟩

instance : Monad (Durable σ ε) where
  pure := Durable.pure
  bind := Durable.bind

def read : Durable σ ε σ := fun s =>
  ⟨[], .ok s, s⟩

def fail (e : ε) : Durable σ ε α := fun s =>
  ⟨[], .error e, s⟩

/-- A computation that leaves the durable state alone. -/
def lift (result : Except ε α) : Durable σ ε α := fun s =>
  ⟨[], result, s⟩

/-- One atomic change of the durable state. -/
def commit (change : σ → σ) : Durable σ ε PUnit := fun s =>
  ⟨[change s], .ok ⟨⟩, change s⟩

/-- What holds of an attempt: `post` when it returns, `failed` when it ends in an error and
`stopped` of every durable state it passes through. -/
def Meets (m : Durable σ ε α) (s : σ) (post : α → σ → Prop) (failed : ε → σ → Prop)
    (stopped : σ → Prop) : Prop :=
  (∀ u ∈ (m s).visited, stopped u) ∧
    match (m s).outcome with
    | .ok a => post a (m s).last
    | .error e => failed e (m s).last

section Rules

variable {s : σ} {post : α → σ → Prop} {failed : ε → σ → Prop} {stopped : σ → Prop}

@[simp] theorem meets_pure {a : α} :
    Meets (Pure.pure a : Durable σ ε α) s post failed stopped ↔ post a s := by
  simp [Meets, Pure.pure, Durable.pure]

@[simp] theorem meets_fail {e : ε} :
    Meets (fail e : Durable σ ε α) s post failed stopped ↔ failed e s := by
  simp [Meets, fail]

@[simp] theorem meets_read {post : σ → σ → Prop} :
    Meets (read : Durable σ ε σ) s post failed stopped ↔ post s s := by
  simp [Meets, read]

@[simp] theorem meets_commit {change : σ → σ} {post : PUnit → σ → Prop} :
    Meets (commit change : Durable σ ε PUnit) s post failed stopped ↔
      stopped (change s) ∧ post ⟨⟩ (change s) := by
  simp [Meets, commit]

@[simp] theorem meets_lift_ok {a : α} :
    Meets (lift (.ok a) : Durable σ ε α) s post failed stopped ↔ post a s := by
  simp [Meets, lift]

@[simp] theorem meets_lift_error {e : ε} :
    Meets (lift (.error e) : Durable σ ε α) s post failed stopped ↔ failed e s := by
  simp [Meets, lift]

theorem meets_lift {result : Except ε α} :
    Meets (lift result : Durable σ ε α) s post failed stopped ↔
      (∀ a, result = .ok a → post a s) ∧ ∀ e, result = .error e → failed e s := by
  cases result <;> simp

/-- A sequence meets what its first part meets with the rest as its continuation. -/
@[simp] theorem meets_bind {m : Durable σ ε β} {k : β → Durable σ ε α} :
    Meets (m >>= k) s post failed stopped ↔
      Meets m s (fun b t => Meets (k b) t post failed stopped) failed stopped := by
  simp only [Meets, Bind.bind, Durable.bind]
  cases (m s).outcome with
  | error e => exact Iff.rfl
  | ok b =>
      simp only [List.mem_append]
      constructor
      · rintro ⟨all, ended⟩
        exact ⟨fun u mem => all u (.inl mem), fun u mem => all u (.inr mem), ended⟩
      · rintro ⟨front, back, ended⟩
        exact ⟨fun u mem => mem.elim (front u) (back u), ended⟩

theorem Meets.weaken {m : Durable σ ε α} {post' : α → σ → Prop} {failed' : ε → σ → Prop}
    {stopped' : σ → Prop} (h : Meets m s post failed stopped)
    (returns : ∀ a t, post a t → post' a t) (fails : ∀ e t, failed e t → failed' e t)
    (stops : ∀ t, stopped t → stopped' t) : Meets m s post' failed' stopped' := by
  obtain ⟨visited, ended⟩ := h
  refine ⟨fun u mem => stops u (visited u mem), ?_⟩
  cases outcome : (m s).outcome with
  | ok a =>
      rw [outcome] at ended
      exact returns a _ ended
  | error e =>
      rw [outcome] at ended
      exact fails e _ ended

/-- The sequencing rule with an intermediate assertion. -/
theorem Meets.seq {m : Durable σ ε β} {k : β → Durable σ ε α} {mid : β → σ → Prop}
    (first : Meets m s mid failed stopped)
    (rest : ∀ b t, mid b t → Meets (k b) t post failed stopped) :
    Meets (m >>= k) s post failed stopped :=
  meets_bind.mpr (first.weaken rest (fun _ _ h => h) fun _ h => h)

end Rules

/-- The attempt returns, in a state where `post` holds. -/
def Returns (m : Durable σ ε α) (s : σ) (post : α → σ → Prop) : Prop :=
  Meets m s post (fun _ _ => False) fun _ => True

/-- The attempt ends in an error. -/
def Fails (m : Durable σ ε α) (s : σ) (failed : ε → σ → Prop) : Prop :=
  Meets m s (fun _ _ => False) failed fun _ => True

/-- If the attempt returns, `post` holds. -/
def Ensures (m : Durable σ ε α) (s : σ) (post : α → σ → Prop) : Prop :=
  Meets m s post (fun _ _ => True) fun _ => True

/-- Wherever the attempt is stopped, `stopped` holds. -/
def Stays (m : Durable σ ε α) (s : σ) (stopped : σ → Prop) : Prop :=
  Meets m s (fun _ _ => True) (fun _ _ => True) stopped

/-- The program keeps an invariant wherever it goes, and answers what satisfies `post`. -/
def Keeps (inv : σ → Prop) (m : Durable σ ε α) (s : σ) (post : α → Prop) : Prop :=
  Meets m s (fun a t => inv t ∧ post a) (fun _ t => inv t) inv

section Keeping

variable {inv : σ → Prop} {s : σ} {post : α → Prop} {mid : β → Prop}

theorem keeps_pure {a : α} (h : inv s) (answer : post a) :
    Keeps inv (Pure.pure a : Durable σ ε α) s post :=
  meets_pure.mpr ⟨h, answer⟩

theorem keeps_fail {e : ε} (h : inv s) : Keeps inv (fail e : Durable σ ε α) s post :=
  meets_fail.mpr h

theorem keeps_lift {result : Except ε α} (h : inv s) (answer : ∀ a, result = .ok a → post a) :
    Keeps inv (lift result : Durable σ ε α) s post :=
  meets_lift.mpr ⟨fun a success => ⟨h, answer a success⟩, fun _ _ => h⟩

theorem keeps_commit {change : σ → σ} {post : PUnit → Prop} (h : inv (change s))
    (answer : post ⟨⟩) : Keeps inv (commit change : Durable σ ε PUnit) s post :=
  meets_commit.mpr ⟨h, h, answer⟩

theorem Keeps.bind {m : Durable σ ε β} {k : β → Durable σ ε α} (first : Keeps inv m s mid)
    (rest : ∀ b t, inv t → mid b → Keeps inv (k b) t post) : Keeps inv (m >>= k) s post :=
  first.seq fun b t held => rest b t held.1 held.2

theorem keeps_read_bind {k : σ → Durable σ ε α} (rest : Keeps inv (k s) s post) :
    Keeps inv ((read : Durable σ ε σ) >>= k) s post :=
  meets_bind.mpr (meets_read.mpr rest)

theorem keeps_commit_bind {change : σ → σ} {k : PUnit → Durable σ ε α} (h : inv (change s))
    (rest : Keeps inv (k ⟨⟩) (change s) post) : Keeps inv (commit change >>= k) s post :=
  meets_bind.mpr (meets_commit.mpr ⟨h, rest⟩)

theorem Keeps.weaken {m : Durable σ ε α} {post' : α → Prop} (h : Keeps inv m s post)
    (answers : ∀ a, post a → post' a) : Keeps inv m s post' :=
  Meets.weaken h (fun a _ held => ⟨held.1, answers a held.2⟩) (fun _ _ held => held)
    fun _ held => held

end Keeping

/-- The durable states in which an attempt can end, by itself or stopped from outside. -/
def leaves (m : Durable σ ε α) (s : σ) : List σ :=
  s :: (m s).last :: (m s).visited

variable {m : Durable σ ε α}

theorem Keeps.leaves {inv : σ → Prop} {s t : σ} {post : α → Prop}
    (h : Keeps inv m s post) (start : inv s) (mem : t ∈ m.leaves s) : inv t := by
  obtain ⟨visited, ended⟩ := h
  simp only [Durable.leaves, List.mem_cons] at mem
  rcases mem with rfl | rfl | inside
  · exact start
  · cases outcome : (m s).outcome with
    | ok a =>
        rw [outcome] at ended
        exact ended.1
    | error e =>
        rw [outcome] at ended
        exact ended
  · exact visited t inside

/-- Attempt after attempt, each under answers of the environment that `admissible` allows, the
program returns within `n` attempts, where `post` holds. -/
def RetriesTo {ι : Type u} (admissible : ι → Prop) (program : ι → Durable σ ε α)
    (post : σ → Prop) : Nat → σ → Prop
  | 0, _ => False
  | n + 1, s => ∀ i, admissible i →
      Meets (program i) s (fun _ t => post t) (fun _ t => RetriesTo admissible program post n t)
        fun _ => True

theorem Returns.outcome {s : σ} {post : α → σ → Prop}
    (h : Returns m s post) : ∃ a, (m s).outcome = .ok a ∧ post a (m s).last := by
  obtain ⟨-, ended⟩ := h
  cases outcome : (m s).outcome with
  | ok a =>
      rw [outcome] at ended
      exact ⟨a, rfl, ended⟩
  | error e =>
      rw [outcome] at ended
      exact ended.elim

theorem Fails.outcome {s : σ} {failed : ε → σ → Prop}
    (h : Fails m s failed) : ∃ e, (m s).outcome = .error e ∧ failed e (m s).last := by
  obtain ⟨-, ended⟩ := h
  cases outcome : (m s).outcome with
  | error e =>
      rw [outcome] at ended
      exact ⟨e, rfl, ended⟩
  | ok a =>
      rw [outcome] at ended
      exact ended.elim

/-- Attempts that fail into the same predicate fail for ever. -/
theorem RetriesTo.impossible {ι : Type u} {admissible : ι → Prop} {program : ι → Durable σ ε α}
    {post stuck : σ → Prop} {i : ι} (allowed : admissible i)
    (blocked : ∀ s, stuck s → Fails (program i) s fun _ t => stuck t) {n : Nat} {s : σ}
    (h : stuck s) : ¬ RetriesTo admissible program post n s := by
  induction n generalizing s with
  | zero => exact id
  | succ n ih =>
      intro retries
      obtain ⟨-, ended⟩ := retries i allowed
      obtain ⟨e, outcome, held⟩ := (blocked s h).outcome
      rw [outcome] at ended
      exact ih held ended

theorem Ensures.returns {s : σ} {post post' : α → σ → Prop}
    (h : Ensures m s post) (returns : Returns m s post') :
    ∃ a t, post a t ∧ post' a t := by
  obtain ⟨a, outcome, held⟩ := returns.outcome
  obtain ⟨-, ended⟩ := h
  rw [outcome] at ended
  exact ⟨a, _, ended, held⟩

theorem Stays.visited {s u : σ} {stopped : σ → Prop}
    (h : Stays m s stopped) (mem : u ∈ (m s).visited) : stopped u :=
  h.1 u mem

end Durable

end DocumentSummarizer.Library
