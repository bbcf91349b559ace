import Mathlib.Logic.Function.Basic
import DocumentSummarizer.Library.TransitionSystem

/-! # Interleaved processes

A process is a sequential program over a shared state, cut into atomic steps.
Between two of them any other process may run.  A discipline says what a process
leaves alone for the others; `Sat` is what one process achieves when the others
keep the discipline, and it needs no product of the processes.
-/

namespace DocumentSummarizer.Library

universe u

/-- A program over the shared state `σ`.  Each step is offered an answer of the environment and
may be blocked; what follows depends on the answer and on the state the step found. -/
inductive Process (σ ι ε α : Type u) : Type u where
  | done (outcome : Except ε α)
  | step (act : ι → σ → Option σ) (next : ι → σ → Process σ ι ε α)

namespace Process

variable {σ ι ε α β : Type u}

def bind (p : Process σ ι ε α) (k : α → Process σ ι ε β) : Process σ ι ε β :=
  match p with
  | .done (.ok a) => k a
  | .done (.error e) => .done (.error e)
  | .step act next => .step act fun i s => (next i s).bind k

instance : Monad (Process σ ι ε) where
  pure a := .done (.ok a)
  bind := bind

def fail (e : ε) : Process σ ι ε α :=
  .done (.error e)

def lift (result : Except ε α) : Process σ ι ε α :=
  .done result

/-- One step that looks at the state and at an answer, changes the state and may fail. -/
def atomic (run : ι → σ → Except ε α × σ) : Process σ ι ε α :=
  .step (fun i s => some (run i s).2) fun i s => .done (run i s).1

/-- Runs `p` and then `release`, whether `p` succeeded or not. -/
def releasing (p : Process σ ι ε α) (release : σ → σ) : Process σ ι ε α :=
  match p with
  | .done outcome => .step (fun _ s => some (release s)) fun _ _ => .done outcome
  | .step act next => .step act fun i s => (next i s).releasing release

/-- Runs `p` and hands its outcome on. -/
def attempt (p : Process σ ι ε α) : Process σ ι ε (Except ε α) :=
  match p with
  | .done outcome => .done (.ok outcome)
  | .step act next => .step act fun i s => (next i s).attempt

/-! ### Single runs -/

/-- A step as it was taken. -/
structure Event (σ ι : Type u) where
  answer : ι
  found : σ
  left : σ

/-- The process ends with this outcome after these steps.  Others may have changed the state
between two of them. -/
inductive Ends : Process σ ι ε α → List (Event σ ι) → Except ε α → Prop where
  | done {outcome} : Ends (.done outcome) [] outcome
  | step {act next i s t events outcome} (moved : act i s = some t)
      (rest : Ends (next i s) events outcome) :
      Ends (.step act next) (⟨i, s, t⟩ :: events) outcome

theorem Ends.of_bind {p : Process σ ι ε α} {next : α → Process σ ι ε β}
    {events : List (Event σ ι)} {b : β} (h : Ends (p >>= next) events (.ok b)) :
    ∃ front back a, events = front ++ back ∧ Ends p front (.ok a) ∧
      Ends (next a) back (.ok b) := by
  change Ends (p.bind next) events (.ok b) at h
  induction p generalizing events with
  | done outcome =>
      cases outcome with
      | ok a => exact ⟨[], events, a, rfl, .done, h⟩
      | error e => cases h
  | step act follow ih =>
      cases h with
      | @step _ _ i s t events _ moved rest =>
          obtain ⟨front, back, a, split, before, after⟩ := ih i s rest
          exact ⟨⟨i, s, t⟩ :: front, back, a, congrArg _ split, .step moved before, after⟩

/-- The process never blocks.  As long as every step meets `given`, every step keeps `kept`, and
the outcome is as `post` says. -/
def Along (given kept : Event σ ι → Prop) : Process σ ι ε α → (Except ε α → Prop) → Prop
  | .done outcome, post => post outcome
  | .step act next, post => ∀ i s, ∃ t, act i s = some t ∧
      (given ⟨i, s, t⟩ → kept ⟨i, s, t⟩ ∧ Along given kept (next i s) post)

section Along

variable {given kept : Event σ ι → Prop} {p : Process σ ι ε α} {post : Except ε α → Prop}

theorem Along.ends {events : List (Event σ ι)} {outcome : Except ε α}
    (h : Along given kept p post) (ends : Ends p events outcome)
    (all : ∀ event ∈ events, given event) : post outcome ∧ ∀ event ∈ events, kept event := by
  induction ends with
  | done => exact ⟨h, nofun⟩
  | @step act next i s t events outcome moved _ ih =>
      obtain ⟨t', moved', follows⟩ := h i s
      rw [moved, Option.some.injEq] at moved'
      subst moved'
      obtain ⟨here, rest⟩ := follows (all _ List.mem_cons_self)
      obtain ⟨ended, later⟩ := ih rest fun event mem => all event (List.mem_cons_of_mem _ mem)
      refine ⟨ended, ?_⟩
      intro event mem
      cases mem with
      | head => exact here
      | tail _ mem => exact later event mem

/-- Whatever is offered, the process ends. -/
theorem Along.total (h : Along given kept p post) (offers : Nat → ι × σ)
    (all : ∀ n t, given ⟨(offers n).1, (offers n).2, t⟩) :
    ∃ events outcome, Ends p events outcome ∧ post outcome ∧
      ∀ n event, events[n]? = some event → (event.answer, event.found) = offers n := by
  induction p generalizing offers with
  | done outcome => exact ⟨[], outcome, .done, h, nofun⟩
  | step act next ih =>
      obtain ⟨t, moved, follows⟩ := h (offers 0).1 (offers 0).2
      obtain ⟨-, rest⟩ := follows (all 0 t)
      obtain ⟨events, outcome, ends, holds, offered⟩ :=
        ih _ _ rest (fun n => offers (n + 1)) fun n => all (n + 1)
      refine ⟨_, outcome, .step moved ends, holds, ?_⟩
      intro n event found
      cases n with
      | zero =>
          cases found
          rfl
      | succ n => exact offered n event found

theorem Along.bind {next : α → Process σ ι ε β} {mid : Except ε α → Prop}
    {post : Except ε β → Prop} (first : Along given kept p mid)
    (returns : ∀ a, mid (.ok a) → Along given kept (next a) post)
    (fails : ∀ e, mid (.error e) → post (.error e)) : Along given kept (p >>= next) post := by
  change Along given kept (p.bind next) post
  induction p with
  | done outcome =>
      cases outcome with
      | ok a => exact returns a first
      | error e => exact fails e first
  | step act follow ih =>
      intro i s
      obtain ⟨t, moved, follows⟩ := first i s
      refine ⟨t, moved, fun holds => ?_⟩
      obtain ⟨here, rest⟩ := follows holds
      exact ⟨here, ih i s rest⟩

theorem along_lift_bind {result : Except ε α} {next : α → Process σ ι ε β}
    {post : Except ε β → Prop}
    (returns : ∀ a, result = .ok a → Along given kept (next a) post)
    (fails : ∀ e, result = .error e → post (.error e)) :
    Along given kept (Process.lift result >>= next) post := by
  cases result with
  | ok a => exact returns a rfl
  | error e => exact fails e rfl

theorem along_atomic {run : ι → σ → Except ε α × σ}
    (h : ∀ i s, given ⟨i, s, (run i s).2⟩ → kept ⟨i, s, (run i s).2⟩ ∧ post (run i s).1) :
    Along given kept (.atomic run) post :=
  fun i s => ⟨(run i s).2, rfl, fun holds => h i s holds⟩

end Along

end Process

/-! ## Disciplines -/

/-- What every process keeps (`inv`), what it leaves alone for process `k` (`frame k`) and what
each of its steps amounts to (`change`). -/
structure Discipline (σ κ : Type u) where
  inv : σ → Prop
  frame : κ → σ → σ → Prop
  change : σ → σ → Prop
  frame_refl : ∀ k s, frame k s s
  frame_trans : ∀ k s t u, frame k s t → frame k t u → frame k s u

namespace Discipline

variable {σ ι ε α β κ : Type u}

/-- A step that process `k` may take. -/
structure Allows (D : Discipline σ κ) (k : κ) (s t : σ) : Prop where
  inv : D.inv t
  frame : ∀ j, j ≠ k → D.frame j s t
  change : D.change s t

/-- Process `k`, running `p` from `s` among others that keep the discipline, keeps it too, and
ends where `post` or `failed` holds. -/
def Sat (D : Discipline σ κ) (k : κ) : Process σ ι ε α → (α → σ → Prop) → (ε → σ → Prop) →
    σ → Prop
  | .done (.ok a), post, _, s => ∀ t, D.inv t → D.frame k s t → post a t
  | .done (.error e), _, failed, s => ∀ t, D.inv t → D.frame k s t → failed e t
  | .step act next, post, failed, s => ∀ t, D.inv t → D.frame k s t →
      ∀ i u, act i t = some u → D.Allows k t u ∧ D.Sat k (next i t) post failed u

/-- What no other process can change. -/
def Stable (D : Discipline σ κ) (k : κ) (P : σ → Prop) : Prop :=
  ∀ s t, D.inv t → D.frame k s t → P s → P t

section Rules

variable {D : Discipline σ κ} {k : κ} {s : σ} {post : α → σ → Prop} {failed : ε → σ → Prop}

variable {p : Process σ ι ε α}

theorem Sat.later {t : σ} (h : D.Sat k p post failed s)
    (frame : D.frame k s t) : D.Sat k p post failed t := by
  cases p with
  | done outcome =>
      cases outcome with
      | ok a => exact fun u inv next => h u inv (D.frame_trans k s t u frame next)
      | error e => exact fun u inv next => h u inv (D.frame_trans k s t u frame next)
  | step act next => exact fun u inv after => h u inv (D.frame_trans k s t u frame after)

theorem Sat.weaken {post' : α → σ → Prop} {failed' : ε → σ → Prop}
    (h : D.Sat k p post failed s) (returns : ∀ a t, D.inv t → post a t → post' a t)
    (fails : ∀ e t, D.inv t → failed e t → failed' e t) : D.Sat k p post' failed' s := by
  induction p generalizing s with
  | done outcome =>
      cases outcome with
      | ok a => exact fun t inv frame => returns a t inv (h t inv frame)
      | error e => exact fun t inv frame => fails e t inv (h t inv frame)
  | step act next ih =>
      intro t inv frame i u moved
      obtain ⟨allowed, rest⟩ := h t inv frame i u moved
      exact ⟨allowed, ih i t rest⟩

/-- The sequencing rule. -/
theorem Sat.bind {p : Process σ ι ε β} {next : β → Process σ ι ε α} {mid : β → σ → Prop}
    (inv : D.inv s) (first : D.Sat k p mid failed s)
    (rest : ∀ b t, D.inv t → mid b t → D.Sat k (next b) post failed t) :
    D.Sat k (p >>= next) post failed s := by
  change D.Sat k (p.bind next) post failed s
  induction p generalizing s with
  | done outcome =>
      cases outcome with
      | ok b => exact rest b s inv (first s inv (D.frame_refl k s))
      | error e => exact first
  | step act follow ih =>
      intro t held frame i u moved
      obtain ⟨allowed, after⟩ := first t held frame i u moved
      exact ⟨allowed, ih i t allowed.inv after⟩

theorem sat_pure {a : α} (stable : D.Stable k (post a)) (h : post a s) :
    D.Sat k (pure a : Process σ ι ε α) post failed s :=
  fun t inv frame => stable s t inv frame h

theorem sat_fail {e : ε} (stable : D.Stable k (failed e)) (h : failed e s) :
    D.Sat k (Process.fail e : Process σ ι ε α) post failed s :=
  fun t inv frame => stable s t inv frame h

theorem sat_lift {result : Except ε α} (ok : ∀ a, result = .ok a → D.Stable k (post a) ∧ post a s)
    (error : ∀ e, result = .error e → D.Stable k (failed e) ∧ failed e s) :
    D.Sat k (Process.lift result : Process σ ι ε α) post failed s := by
  cases result with
  | ok a => exact sat_pure (ok a rfl).1 (ok a rfl).2
  | error e => exact sat_fail (error e rfl).1 (error e rfl).2

/-- One atomic step from a stable assertion into stable assertions. -/
theorem sat_atomic {run : ι → σ → Except ε α × σ} {P : σ → Prop} (stable : D.Stable k P)
    (h : P s) (returns : ∀ a, D.Stable k (post a)) (fails : ∀ e, D.Stable k (failed e))
    (moves : ∀ i t, D.inv t → P t → D.Allows k t (run i t).2 ∧
      match (run i t).1 with
      | .ok a => post a (run i t).2
      | .error e => failed e (run i t).2) :
    D.Sat k (Process.atomic run : Process σ ι ε α) post failed s := by
  intro t inv frame i u moved
  cases moved
  obtain ⟨allowed, ended⟩ := moves i t inv (stable s t inv frame h)
  refine ⟨allowed, ?_⟩
  change D.Sat k (.done (run i t).1) post failed _
  cases outcome : (run i t).1 with
  | ok a =>
      rw [outcome] at ended
      exact fun v inv frame => returns a _ v inv frame ended
  | error e =>
      rw [outcome] at ended
      exact fun v inv frame => fails e _ v inv frame ended

/-- The release step comes after either outcome. -/
theorem Sat.releasing {release : σ → σ} {mid : α → σ → Prop}
    {broken : ε → σ → Prop} (h : D.Sat k p mid broken s)
    (returns : ∀ a, D.Stable k (post a)) (fails : ∀ e, D.Stable k (failed e))
    (ok : ∀ a t, D.inv t → mid a t → D.Allows k t (release t) ∧ post a (release t))
    (error : ∀ e t, D.inv t → broken e t → D.Allows k t (release t) ∧ failed e (release t)) :
    D.Sat k (p.releasing release) post failed s := by
  induction p generalizing s with
  | done outcome =>
      intro t inv frame i u moved
      cases moved
      cases outcome with
      | ok a =>
          obtain ⟨allowed, ended⟩ := ok a t inv (h t inv frame)
          exact ⟨allowed, fun v inv frame => returns a _ v inv frame ended⟩
      | error e =>
          obtain ⟨allowed, ended⟩ := error e t inv (h t inv frame)
          exact ⟨allowed, fun v inv frame => fails e _ v inv frame ended⟩
  | step act next ih =>
      intro t inv frame i u moved
      obtain ⟨allowed, rest⟩ := h t inv frame i u moved
      exact ⟨allowed, ih i t rest⟩

theorem Sat.attempt {p : Process σ ι ε α} {post : Except ε α → σ → Prop}
    (h : D.Sat k p (fun a => post (.ok a)) (fun e => post (.error e)) s) :
    D.Sat k p.attempt post failed s := by
  induction p generalizing s with
  | done outcome =>
      cases outcome with
      | ok a => exact h
      | error e => exact h
  | step act next ih =>
      intro t inv frame i u moved
      obtain ⟨allowed, rest⟩ := h t inv frame i u moved
      exact ⟨allowed, ih i t rest⟩

theorem Sat.keeping {P : σ → Prop} (h : D.Sat k p post failed s)
    (stable : D.Stable k P) (kept : ∀ s t, D.Allows k s t → P s → P t) (holds : P s) :
    D.Sat k p (fun a t => post a t ∧ P t) (fun e t => failed e t ∧ P t) s := by
  induction p generalizing s with
  | done outcome =>
      cases outcome with
      | ok a => exact fun t inv frame => ⟨h t inv frame, stable s t inv frame holds⟩
      | error e => exact fun t inv frame => ⟨h t inv frame, stable s t inv frame holds⟩
  | step act next ih =>
      intro t inv frame i u moved
      obtain ⟨allowed, rest⟩ := h t inv frame i u moved
      exact ⟨allowed, ih i t rest (kept t u allowed (stable s t inv frame holds))⟩

theorem Stable.and {P Q : σ → Prop} (left : D.Stable k P) (right : D.Stable k Q) :
    D.Stable k fun s => P s ∧ Q s :=
  fun s t inv frame h => ⟨left s t inv frame h.1, right s t inv frame h.2⟩

theorem stable_const {P : Prop} : D.Stable k fun _ => P :=
  fun _ _ _ _ h => h

theorem stable_exists {P : β → σ → Prop} (stable : ∀ b, D.Stable k (P b)) :
    D.Stable k fun s => ∃ b, P b s := by
  intro s t inv frame h
  obtain ⟨b, holds⟩ := h
  exact ⟨b, stable b s t inv frame holds⟩

end Rules

end Discipline

/-! ## Systems -/

/-- Programs that run side by side, each under an identity, and what disappears with a process
that exits or is killed. -/
structure Processes (σ ι ε α ρ κ : Type u) where
  program : ρ → κ → Process σ ι ε α
  release : κ → σ → σ

structure Configuration (σ ι ε α ρ κ : Type u) where
  state : σ
  running : κ → Option (ρ × Process σ ι ε α)

inductive Move (ι ε α ρ κ : Type u) where
  | spawn (k : κ) (request : ρ)
  | step (k : κ) (answer : ι)
  | exit (k : κ) (outcome : Except ε α)
  | kill (k : κ)

namespace Processes

variable {σ ι ε α ρ κ : Type u} [DecidableEq κ]

inductive Step (S : Processes σ ι ε α ρ κ) : Configuration σ ι ε α ρ κ → Move ι ε α ρ κ →
    Configuration σ ι ε α ρ κ → Prop where
  | spawn {c k} (request) (idle : c.running k = none) :
      Step S c (.spawn k request)
        { c with running := Function.update c.running k (some (request, S.program request k)) }
  | step {c k request act next i t} (at_step : c.running k = some (request, .step act next))
      (moved : act i c.state = some t) :
      Step S c (.step k i)
        ⟨t, Function.update c.running k (some (request, next i c.state))⟩
  | exit {c k request outcome} (ended : c.running k = some (request, .done outcome)) :
      Step S c (.exit k outcome)
        ⟨S.release k c.state, Function.update c.running k none⟩
  | kill {c k job} (running : c.running k = some job) :
      Step S c (.kill k) ⟨S.release k c.state, Function.update c.running k none⟩

/-- All processes from a state that satisfies `start`, none running at first. -/
def machine (S : Processes σ ι ε α ρ κ) (start : σ → Prop) :
    Machine (Configuration σ ι ε α ρ κ) (Move ι ε α ρ κ) where
  init c := start c.state ∧ ∀ k, c.running k = none
  step := S.Step

/-- A process that is started or takes its next step. -/
inductive Turn (ι ρ κ : Type u) where
  | spawn (k : κ) (request : ρ)
  | step (k : κ) (answer : ι)

/-- The moves in this order, if each of them is enabled. -/
def follow (S : Processes σ ι ε α ρ κ) :
    List (Turn ι ρ κ) → Configuration σ ι ε α ρ κ → Option (Configuration σ ι ε α ρ κ)
  | [], c => some c
  | .spawn k request :: rest, c =>
    match c.running k with
    | some _ => none
    | none =>
      S.follow rest
        { c with running := Function.update c.running k (some (request, S.program request k)) }
  | .step k i :: rest, c =>
    match c.running k with
    | some (request, .step act next) =>
      match act i c.state with
      | none => none
      | some t =>
        S.follow rest ⟨t, Function.update c.running k (some (request, next i c.state))⟩
    | _ => none

theorem follow_reachable {S : Processes σ ι ε α ρ κ} {start : σ → Prop}
    {turns : List (Turn ι ρ κ)} {c d : Configuration σ ι ε α ρ κ}
    (h : (S.machine start).Reachable c) (followed : S.follow turns c = some d) :
    (S.machine start).Reachable d := by
  induction turns generalizing c with
  | nil =>
      cases followed
      exact h
  | cons turn rest ih =>
      cases turn with
      | spawn k request =>
          cases idle : c.running k with
          | some job =>
              simp only [Processes.follow, idle] at followed
              cases followed
          | none =>
              simp only [Processes.follow, idle] at followed
              exact ih (h.next (.spawn request idle)) followed
      | step k i =>
          cases job : c.running k with
          | none =>
              simp only [Processes.follow, job] at followed
              cases followed
          | some job' =>
              obtain ⟨request, p⟩ := job'
              cases p with
              | done outcome =>
                  simp only [Processes.follow, job] at followed
                  cases followed
              | step act next =>
                  cases moved : act i c.state with
                  | none =>
                      simp only [Processes.follow, job, moved] at followed
                      cases followed
                  | some t =>
                      simp only [Processes.follow, job, moved] at followed
                      exact ih (h.next (.step job moved)) followed

theorem step_of_follow {S : Processes σ ι ε α ρ κ} {k : κ} {i : ι}
    {c d : Configuration σ ι ε α ρ κ} (followed : S.follow [.step k i] c = some d) :
    S.Step c (.step k i) d := by
  cases job : c.running k with
  | none =>
      simp only [Processes.follow, job] at followed
      cases followed
  | some job' =>
      obtain ⟨request, p⟩ := job'
      cases p with
      | done outcome =>
          simp only [Processes.follow, job] at followed
          cases followed
      | step act next =>
          cases moved : act i c.state with
          | none =>
              simp only [Processes.follow, job, moved] at followed
              cases followed
          | some t =>
              simp only [Processes.follow, job, moved] at followed
              cases followed
              exact .step job moved

/-- The programs keep the discipline.  A process that is not running is `idle`. -/
structure Keeps (S : Processes σ ι ε α ρ κ) (D : Discipline σ κ) (idle : κ → σ → Prop)
    (post : ρ → κ → α → σ → Prop) (failed : ρ → κ → ε → σ → Prop) : Prop where
  idle_stable : ∀ k, D.Stable k (idle k)
  released : ∀ k s, D.inv s → D.Allows k s (S.release k s) ∧ idle k (S.release k s)
  programs : ∀ request k s, D.inv s → idle k s →
    D.Sat k (S.program request k) (post request k) (failed request k) s

section Soundness

variable {S : Processes σ ι ε α ρ κ} {D : Discipline σ κ} {idle : κ → σ → Prop}
  {post : ρ → κ → α → σ → Prop} {failed : ρ → κ → ε → σ → Prop} {start : σ → Prop}
  {c c' : Configuration σ ι ε α ρ κ} {label : Move ι ε α ρ κ}

/-- What is left of every process is as good as its program. -/
structure Sound (D : Discipline σ κ) (idle : κ → σ → Prop) (post : ρ → κ → α → σ → Prop)
    (failed : ρ → κ → ε → σ → Prop) (c : Configuration σ ι ε α ρ κ) : Prop where
  inv : D.inv c.state
  idle : ∀ k, c.running k = none → idle k c.state
  running : ∀ k request p, c.running k = some (request, p) →
    D.Sat k p (post request k) (failed request k) c.state

/-- One process moves under the discipline; the others are as good as before. -/
theorem Sound.moves {k : κ} {t : σ} {job : Option (ρ × Process σ ι ε α)}
    (h : Sound D idle post failed c) (keeps : S.Keeps D idle post failed)
    (inv : D.inv t) (frame : ∀ j, j ≠ k → D.frame j c.state t)
    (idle_after : job = none → idle k t)
    (running_after : ∀ request p, job = some (request, p) →
      D.Sat k p (post request k) (failed request k) t) :
    Sound D idle post failed ⟨t, Function.update c.running k job⟩ where
  inv := inv
  idle := by
    intro j none_running
    change Function.update c.running k job j = none at none_running
    by_cases same : j = k
    · subst same
      rw [Function.update_self] at none_running
      exact idle_after none_running
    · rw [Function.update_of_ne same] at none_running
      exact keeps.idle_stable j _ _ inv (frame j same) (h.idle j none_running)
  running := by
    intro j request p runs
    change Function.update c.running k job j = some (request, p) at runs
    by_cases same : j = k
    · subst same
      rw [Function.update_self] at runs
      exact running_after request p runs
    · rw [Function.update_of_ne same] at runs
      exact (h.running j request p runs).later (frame j same)

theorem Sound.step (h : Sound D idle post failed c) (keeps : S.Keeps D idle post failed)
    (moved : S.Step c label c') : Sound D idle post failed c' := by
  cases moved with
  | @spawn k request none_running =>
      apply h.moves keeps h.inv fun j _ => D.frame_refl j c.state
      · exact nofun
      · intro request' p runs
        cases runs
        exact keeps.programs request k c.state h.inv (h.idle k none_running)
  | @step k request act next i t at_step acted =>
      obtain ⟨allowed, rest⟩ := h.running k request _ at_step c.state h.inv
        (D.frame_refl k c.state) i t acted
      apply h.moves keeps allowed.inv allowed.frame
      · exact nofun
      · intro request' p runs
        cases runs
        exact rest
  | @exit k request outcome ended =>
      obtain ⟨allowed, idle_now⟩ := keeps.released k c.state h.inv
      exact h.moves keeps allowed.inv allowed.frame (fun _ => idle_now) nofun
  | @kill k job running =>
      obtain ⟨allowed, idle_now⟩ := keeps.released k c.state h.inv
      exact h.moves keeps allowed.inv allowed.frame (fun _ => idle_now) nofun

/-- In every reachable configuration what is left of every process keeps the discipline. -/
theorem Keeps.sound (keeps : S.Keeps D idle post failed)
    (begins : ∀ s, start s → D.inv s ∧ ∀ k, idle k s) (h : (S.machine start).Reachable c) :
    Sound D idle post failed c := by
  apply h.invariant
  · intro c starts
    obtain ⟨inv, idle_all⟩ := begins c.state starts.1
    refine ⟨inv, fun k _ => idle_all k, ?_⟩
    intro k request p runs
    rw [starts.2 k] at runs
    cases runs
  · intro c label c' moved sound
    exact sound.step keeps moved

omit [DecidableEq κ] in
theorem Sound.exit {k : κ} {request : ρ} {a : α} (h : Sound D idle post failed c)
    (ended : c.running k = some (request, .done (.ok a))) : post request k a c.state :=
  h.running k request _ ended c.state h.inv (D.frame_refl k c.state)

theorem Sound.change (h : Sound D idle post failed c) (keeps : S.Keeps D idle post failed)
    (moved : S.Step c label c') : c'.state = c.state ∨ D.change c.state c'.state := by
  cases moved with
  | spawn request none_running => exact .inl rfl
  | @step k request act next i t at_step acted =>
      exact .inr (h.running k request _ at_step c.state h.inv (D.frame_refl k c.state) i t
        acted).1.change
  | @exit k request outcome ended => exact .inr (keeps.released k c.state h.inv).1.change
  | @kill k job running => exact .inr (keeps.released k c.state h.inv).1.change

end Soundness

end Processes

end DocumentSummarizer.Library
